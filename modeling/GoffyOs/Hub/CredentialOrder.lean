import GoffyOs.Hub.CredentialRuns
import GoffyOs.Lib.Checks
import GoffyOs.Python.DateTimeOrder

/-!
# Credentials in the order of time

`_prune_revoked` and `list_credentials` sort by the text of a timestamp. As long as no timestamp of a
column clashes with another one of it (`Clashless`), this is the order of the instants, over any run and
with any clock; `listsNewestFirst_iff` says that a list with a clash is never in order.
-/

namespace GoffyHub.Credentials

open Python

/-! ### What is asked of a table -/

/-- `_prune_revoked` deletes only revoked credentials, as many as have to go, and those that were revoked
first. -/
structure PrunesEarliest (zone : NaiveDateTime → Except Exn ℤ) (table : CredentialTable) : Prop where
  revoked : ∀ row ∈ table.rows, row ∉ (pruneRevoked table).rows → row.active = false
  count : (pruneRevoked table).rows.length = table.rows.length -
    min (table.rows.length + 1 - maxRetainedCredentials) (table.rows.countP fun row => !row.active)
  earliest : ∀ row ∈ table.rows, row ∉ (pruneRevoked table).rows →
    ∀ row' ∈ (pruneRevoked table).rows, ∀ credential credential' d d',
      rowToCredential zone row = .ok credential → credential.revokedAt = some d →
      rowToCredential zone row' = .ok credential' → credential'.revokedAt = some d' →
      d.micros ≤ d'.micros

/-- `list_credentials` returns all credentials, the newest first. -/
def ListsNewestFirst (zone : NaiveDateTime → Except Exn ℤ) (table : CredentialTable) : Prop :=
  ∃ credentials, listCredentials zone table .none = .ok credentials ∧
    credentials.length = table.rows.length ∧
    credentials.Pairwise fun a b => b.createdAt.micros ≤ a.createdAt.micros

/-- The clock reading of a step does not clash with a time that its column holds. -/
def Clashless (table : CredentialTable) (_ : List Event) : Action → Prop
  | .issue _ _ _ now _ => ∀ d, asUtc now = .ok d →
    ∀ row ∈ table.rows, ∀ d', row.createdAt = serializeDatetime d' → ¬ Clash d d'
  | .revoke _ now _ => ∀ d, asUtc now = .ok d →
    ∀ row ∈ table.rows, ∀ d', row.revokedAt = some (serializeDatetime d') → ¬ Clash d d'
  | _ => True

/-! ### Rows with timestamps -/

/-- A row that the store has written. -/
structure Timed (row : CredentialRow) : Prop where
  credentialId : ∃ c, row.credentialId = uuidStr c
  createdAt : ∃ d, row.createdAt = serializeDatetime d
  revokedAt : ∀ text ∈ row.revokedAt, ∃ d, text = serializeDatetime d

section Rows

variable {zone : NaiveDateTime → Except Exn ℤ} {table table' : CredentialTable} {row : CredentialRow}
  {credential : PairedCredential}

variable (zone) in
/-- A row is read with the times that were written. -/
theorem Timed.read (h : Timed row) : ∃ credential, rowToCredential zone row = .ok credential ∧
    row.createdAt = serializeDatetime credential.createdAt ∧
    row.revokedAt = credential.revokedAt.map serializeDatetime := by
  obtain ⟨c, hc⟩ := h.credentialId
  obtain ⟨d, hd⟩ := h.createdAt
  have hid : parseCredentialId row.credentialId = .ok c := by
    rw [parseCredentialId, hc, parseUuid_uuidStr]
  have hcreated : parseDatetime zone row.createdAt = .ok d := by
    rw [hd, parseDatetime_serializeDatetime]
  cases hrev : row.revokedAt with
  | none =>
    simp only [rowToCredential, hid, hcreated, hrev]
    exact ⟨_, rfl, hd, rfl⟩
  | some text =>
    obtain ⟨d', rfl⟩ := h.revokedAt text hrev
    simp only [rowToCredential, hid, hcreated, hrev, parseDatetime_serializeDatetime]
    exact ⟨_, rfl, hd, rfl⟩

theorem Timed.read_eq (h : Timed row) (hread : rowToCredential zone row = .ok credential) :
    row.createdAt = serializeDatetime credential.createdAt ∧
      row.revokedAt = credential.revokedAt.map serializeDatetime := by
  obtain ⟨credential', hread', hcreated, hrevoked⟩ := h.read zone
  obtain rfl := Except.ok.inj (hread.symm.trans hread')
  exact ⟨hcreated, hrevoked⟩

/-- No two rows were created at times that clash. -/
def CreatedApart (table : CredentialTable) : Prop :=
  ∀ row ∈ table.rows, ∀ row' ∈ table.rows, ∀ d d', row.createdAt = serializeDatetime d →
    row'.createdAt = serializeDatetime d' → ¬ Clash d d'

/-- No two rows were revoked at times that clash. -/
def RevokedApart (table : CredentialTable) : Prop :=
  ∀ row ∈ table.rows, ∀ row' ∈ table.rows, ∀ d d', row.revokedAt = some (serializeDatetime d) →
    row'.revokedAt = some (serializeDatetime d') → ¬ Clash d d'

/-- The times that are stored in the table do not clash. -/
structure InOrder (table : CredentialTable) : Prop where
  rows_le : table.rows.length ≤ maxRetainedCredentials
  timed : ∀ row ∈ table.rows, Timed row
  created : CreatedApart table
  revoked : RevokedApart table

theorem InOrder.empty : InOrder CredentialTable.empty where
  rows_le := Nat.zero_le _
  timed := fun _ hrow => absurd hrow List.not_mem_nil
  created := fun _ hrow => absurd hrow List.not_mem_nil
  revoked := fun _ hrow => absurd hrow List.not_mem_nil

variable (zone) in
/-- Of two revoked credentials in order, the earlier one is deleted first. -/
theorem InOrder.prunesEarliest (h : InOrder table) : PrunesEarliest zone table where
  revoked row hrow hdeleted := by
    by_contra hactive
    exact hdeleted (mem_pruneRevoked_of_active hrow (by simpa using hactive))
  count := by
    have hlength := length_pruneRevoked table
    rw [length_victims] at hlength
    omega
  earliest := by
    intro row hrow hdeleted row' hkept credential credential' d d' hread hd hread' hd'
    have hvictim : row ∈ victims table := by
      by_contra hnot
      exact hdeleted (mem_pruneRevoked_iff.2 ⟨hrow, hnot⟩)
    obtain ⟨hrow', hnot⟩ := mem_pruneRevoked_iff.1 hkept
    have hrevoked := (h.timed row hrow).read_eq hread
    have hrevoked' := (h.timed row' hrow').read_eq hread'
    rw [hd] at hrevoked
    rw [hd'] at hrevoked'
    set key := fun row : CredentialRow => row.revokedAt.getD [] with hkey
    set sorted := sortBy key CredentialRow.credentialId (table.rows.filter fun row => !row.active)
      with hsorted
    have hmem : row' ∈ sorted := by
      refine (sortBy_perm _ _ _).mem_iff.2 (List.mem_filter.2 ⟨hrow', ?_⟩)
      rw [CredentialRow.active, hrevoked'.2]
      rfl
    have hpair := pairwise_sortBy key CredentialRow.credentialId
      (table.rows.filter fun row => !row.active)
    rw [← hsorted, ← List.take_append_drop (table.rows.length + 1 - maxRetainedCredentials) sorted]
      at hpair
    -- the victims come first, and `row'` is in the rest
    have hrest : row' ∈ sorted.drop (table.rows.length + 1 - maxRetainedCredentials) := by
      rw [← List.take_append_drop (table.rows.length + 1 - maxRetainedCredentials) sorted] at hmem
      exact (List.mem_append.1 hmem).resolve_left hnot
    have hle := (List.pairwise_append.1 hpair).2.2 row hvictim row' hrest
    rw [hkey] at hle
    simp only [hrevoked.2, hrevoked'.2, Option.map_some, Option.getD_some] at hle
    exact (textLE_serializeDatetime_iff
      (h.revoked row hrow row' hrow' d d' hrevoked.2 hrevoked'.2)).1 hle

variable (zone) in
/-- The rows of a list are read, in its order. -/
theorem listCredentials_of_timed (hrows : table.rows.length ≤ maxRetainedCredentials)
    (htimed : ∀ row ∈ table.rows, Timed row) :
    ∃ credentials, listCredentials zone table .none = .ok credentials ∧
      (sortByDesc CredentialRow.createdAt CredentialRow.credentialId table.rows).mapM
        (rowToCredential zone) = .ok credentials := by
  set rows := sortByDesc CredentialRow.createdAt CredentialRow.credentialId table.rows with hsorted
  have hperm : rows.Perm table.rows := sortByDesc_perm _ _ _
  have hread : ∀ l : List CredentialRow, (∀ row ∈ l, Timed row) →
      ∃ credentials, l.mapM (rowToCredential zone) = .ok credentials := by
    intro l hl
    induction l with
    | nil => exact ⟨[], rfl⟩
    | cons row l ih =>
      obtain ⟨credential, hcredential, -⟩ := (hl row List.mem_cons_self).read zone
      obtain ⟨credentials, hcredentials⟩ := ih fun r hr => hl r (List.mem_cons_of_mem _ hr)
      exact ⟨credential :: credentials,
        Checks.mapM_cons_eq_ok.2 ⟨credential, credentials, hcredential, hcredentials, rfl⟩⟩
  obtain ⟨credentials, hcredentials⟩ := hread rows fun row hrow => htimed row (hperm.mem_iff.1 hrow)
  refine ⟨credentials, ?_, hcredentials⟩
  have htake : rows.take maxRetainedCredentials = rows :=
    List.take_of_length_le (hperm.length_eq.trans_le hrows)
  unfold listCredentials
  rw [if_neg (not_not.2 rfl)]
  dsimp only
  rw [← hsorted, htake, hcredentials]
  rfl

variable (zone) in
/-- The list is in order exactly when no two times of creation clash. -/
theorem listsNewestFirst_iff (hrows : table.rows.length ≤ maxRetainedCredentials)
    (htimed : ∀ row ∈ table.rows, Timed row) :
    ListsNewestFirst zone table ↔ CreatedApart table := by
  obtain ⟨credentials, hlist, hread⟩ := listCredentials_of_timed zone hrows htimed
  set rows := sortByDesc CredentialRow.createdAt CredentialRow.credentialId table.rows with hsorted
  have hperm : rows.Perm table.rows := sortByDesc_perm _ _ _
  have hpair : rows.Pairwise fun a b => textLE b.createdAt a.createdAt := pairwise_sortByDesc _ _ _
  have hmem : ∀ row, row ∈ rows ↔ row ∈ table.rows := fun row => hperm.mem_iff
  have hlength : credentials.length = table.rows.length :=
    (Checks.length_of_mapM hread).trans hperm.length_eq
  have hiff : ListsNewestFirst zone table ↔
      credentials.Pairwise fun a b => b.createdAt.micros ≤ a.createdAt.micros := by
    constructor
    · rintro ⟨credentials', hlist', -, hnewest⟩
      obtain rfl := Except.ok.inj (hlist.symm.trans hlist')
      exact hnewest
    · exact fun hnewest => ⟨credentials, hlist, hlength, hnewest⟩
  rw [hiff, Checks.pairwise_mapM_iff hread]
  constructor
  · intro hnewest row hrow row' hrow' d d' hd hd' hclash
    wlog hlt : d.micros < d'.micros generalizing row row' d d'
    · rcases (not_lt.1 hlt).eq_or_lt with heq | hgt
      · exact hclash.2 (by rw [micros_injective heq])
      · exact this row' hrow' row hrow d' d hd' hd hclash.symm hgt
    have hne : row ≠ row' := by
      rintro rfl
      rw [hd] at hd'
      rw [serializeDatetime_injective hd'] at hlt
      exact lt_irrefl _ hlt
    obtain ⟨c, hc, hcreated, -⟩ := (htimed row hrow).read zone
    obtain ⟨c', hc', hcreated', -⟩ := (htimed row' hrow').read zone
    obtain rfl := serializeDatetime_injective (hd.symm.trans hcreated)
    obtain rfl := serializeDatetime_injective (hd'.symm.trans hcreated')
    -- one of the two stands before the other one
    rcases Ranking.or_of_pairwise (hpair.and hnewest) ((hmem row).2 hrow) ((hmem row').2 hrow') hne
      with ⟨-, hle⟩ | ⟨hle, -⟩
    · exact absurd (hle c c' hc hc') (by omega)
    · rw [hd, hd'] at hle
      exact not_textLE_of_clash hclash hlt hle
  · intro happart
    refine hpair.imp_of_mem fun {row row'} hrow hrow' hle c c' hc hc' => ?_
    have hcreated := ((htimed row ((hmem row).1 hrow)).read_eq hc).1
    have hcreated' := ((htimed row' ((hmem row').1 hrow')).read_eq hc').1
    rw [hcreated, hcreated'] at hle
    exact (textLE_serializeDatetime_iff (happart row' ((hmem row').1 hrow') row ((hmem row).1 hrow)
      _ _ hcreated' hcreated)).1 hle

end Rows

/-! ### Runs -/

section Runs

variable {zone : NaiveDateTime → Except Exn ℤ} {table : CredentialTable} {es : List Event}

/-- What `issue` does to the table. -/
theorem issue_table (table : CredentialTable) (args : IssueArgs) (t : Str) (c : UUID) (now : DateTime)
    (fault : Fault) : (issue table args t c now fault).1 = table ∨
      ∃ d row, asUtc now = .ok d ∧ row.credentialId = uuidStr c ∧
        row.createdAt = serializeDatetime d ∧ row.revokedAt = none ∧
        table.activeRows.length < maxActiveCredentials ∧
        (issue table args t c now fault).1.rows = row :: (pruneRevoked table).rows := by
  unfold issue
  cases hnew : newCredential args t c now with
  | error e => exact Or.inl rfl
  | ok credential =>
    have hcredential : credential.credentialId = c ∧ asUtc now = .ok credential.createdAt := by
      unfold newCredential at hnew
      repeat (split at hnew; · cases hnew)
      obtain ⟨d, hd, h⟩ := Checks.bind_eq_ok.1 hnew
      obtain rfl := Except.ok.inj h
      exact ⟨rfl, hd⟩
    dsimp only
    split
    · exact Or.inl rfl
    split
    · exact Or.inl rfl
    case isFalse hroom =>
      cases hinsert : (pruneRevoked table).insert (newRow credential t) with
      | none => exact Or.inl rfl
      | some table' =>
        dsimp only
        split
        case isFalse => exact Or.inl rfl
        case isTrue =>
          have hrows : table'.rows = newRow credential t :: (pruneRevoked table).rows := by
            unfold CredentialTable.insert at hinsert
            split at hinsert
            · obtain rfl := Option.some.inj hinsert
              rfl
            · cases hinsert
          exact Or.inr ⟨credential.createdAt, newRow credential t, hcredential.2,
            congrArg uuidStr hcredential.1, rfl, rfl, not_le.1 hroom, hrows⟩

variable (zone) in
/-- What `revoke` does to the table. -/
theorem revoke_table (table : CredentialTable) (c : UUID) (now : DateTime) (fault : Fault) :
    (revoke zone table c now fault).1 = table ∨ ∃ d, asUtc now = .ok d ∧
      (revoke zone table c now fault).1 = table.setRevokedAt c (serializeDatetime d) := by
  unfold revoke
  cases asUtc now with
  | error e => exact Or.inl rfl
  | ok d =>
    dsimp only
    split
    · exact Or.inl rfl
    split
    · split
      · exact Or.inl rfl
      · exact Or.inl rfl
    · split
      · exact Or.inl rfl
      · exact Or.inr ⟨d, rfl, rfl⟩

variable (zone) in
/-- What `rotate` does to the table. -/
theorem rotate_table (table : CredentialTable) (c : UUID) (t t' : Str) (now : DateTime)
    (fault : Fault) : (rotate zone table c t t' now fault).1 = table ∨
      (rotate zone table c t t' now fault).1.rows =
        table.rows.map (CredentialTable.rotateRow c (tokenDigest t) (tokenDigest t')) := by
  unfold rotate
  split
  · exact Or.inl rfl
  cases asUtc now with
  | error e => exact Or.inl rfl
  | ok d =>
    dsimp only
    split
    · exact Or.inl rfl
    split
    · split
      · exact Or.inl rfl
      · exact Or.inl rfl
    · split
      · exact Or.inl rfl
      split
      · exact Or.inl rfl
      cases hset : table.setTokenDigest c (tokenDigest t) (tokenDigest t') with
      | none => exact Or.inl rfl
      | some table' =>
        dsimp only
        split
        · exact Or.inl rfl
        · unfold CredentialTable.setTokenDigest at hset
          dsimp only at hset
          split at hset
          · obtain rfl := Option.some.inj hset
            exact Or.inr rfl
          · cases hset

/-- A new credential, at a time that does not clash. -/
theorem InOrder.insert (h : InOrder table) {table' : CredentialTable} {row : CredentialRow} {c : UUID}
    {d : NaiveDateTime} (hid : row.credentialId = uuidStr c) (hcreated : row.createdAt = serializeDatetime d)
    (hrevoked : row.revokedAt = none) (hroom : table.activeRows.length < maxActiveCredentials)
    (hrows : table'.rows = row :: (pruneRevoked table).rows)
    (happart : ∀ r ∈ table.rows, ∀ d', r.createdAt = serializeDatetime d' → ¬ Clash d d') :
    InOrder table' where
  rows_le := by
    rw [hrows, List.length_cons]
    exact pruneRevoked_length_lt hroom
  timed := by
    rw [hrows]
    refine List.forall_mem_cons.2 ⟨⟨⟨c, hid⟩, ⟨d, hcreated⟩, ?_⟩,
      fun r hr => h.timed r (mem_of_mem_pruneRevoked hr)⟩
    rw [hrevoked]
    intro text htext
    cases htext
  created := by
    unfold CreatedApart
    rw [hrows]
    intro r hr r' hr' e e' he he'
    rcases List.mem_cons.1 hr with hnew | hmem <;> rcases List.mem_cons.1 hr' with hnew' | hmem'
    · rw [hnew] at he
      rw [hnew'] at he'
      rw [serializeDatetime_injective (he.symm.trans he')]
      exact fun hclash => hclash.2 Iff.rfl
    · rw [hnew] at he
      rw [serializeDatetime_injective (he.symm.trans hcreated)]
      exact happart r' (mem_of_mem_pruneRevoked hmem') e' he'
    · rw [hnew'] at he'
      rw [serializeDatetime_injective (he'.symm.trans hcreated)]
      exact fun hclash => happart r (mem_of_mem_pruneRevoked hmem) e he hclash.symm
    · exact h.created r (mem_of_mem_pruneRevoked hmem) r' (mem_of_mem_pruneRevoked hmem') e e' he he'
  revoked := by
    unfold RevokedApart
    rw [hrows]
    intro r hr r' hr' e e' he he'
    rcases List.mem_cons.1 hr with rfl | hr
    · rw [hrevoked] at he
      cases he
    rcases List.mem_cons.1 hr' with rfl | hr'
    · rw [hrevoked] at he'
      cases he'
    exact h.revoked r (mem_of_mem_pruneRevoked hr) r' (mem_of_mem_pruneRevoked hr') e e' he he'

/-- A revocation at a time that does not clash. -/
theorem InOrder.setRevokedAt (h : InOrder table) {c : UUID} {d : NaiveDateTime}
    (happart : ∀ r ∈ table.rows, ∀ d', r.revokedAt = some (serializeDatetime d') → ¬ Clash d d') :
    InOrder (table.setRevokedAt c (serializeDatetime d)) := by
  have hmem : ∀ r ∈ (table.setRevokedAt c (serializeDatetime d)).rows, ∃ r₀ ∈ table.rows,
      r.credentialId = r₀.credentialId ∧ r.createdAt = r₀.createdAt ∧
        (r.revokedAt = some (serializeDatetime d) ∨ r.revokedAt = r₀.revokedAt) := by
    intro r hr
    obtain ⟨r₀, hr₀, rfl⟩ := List.mem_map.1 hr
    refine ⟨r₀, hr₀, ?_⟩
    split
    · exact ⟨rfl, rfl, Or.inl rfl⟩
    · exact ⟨rfl, rfl, Or.inr rfl⟩
  refine ⟨?_, ?_, ?_, ?_⟩
  · exact (List.length_map _).trans_le h.rows_le
  · intro r hr
    obtain ⟨r₀, hr₀, hid, hcreated, hrevoked⟩ := hmem r hr
    have htimed := h.timed r₀ hr₀
    refine ⟨hid ▸ htimed.credentialId, hcreated ▸ htimed.createdAt, ?_⟩
    rcases hrevoked with hrevoked | hrevoked
    · rw [hrevoked]
      rintro text ⟨⟩
      exact ⟨d, rfl⟩
    · exact hrevoked ▸ htimed.revokedAt
  · intro r hr r' hr' e e' he he'
    obtain ⟨r₀, hr₀, -, hcreated, -⟩ := hmem r hr
    obtain ⟨r₀', hr₀', -, hcreated', -⟩ := hmem r' hr'
    exact h.created r₀ hr₀ r₀' hr₀' e e' (hcreated.symm.trans he) (hcreated'.symm.trans he')
  · intro r hr r' hr' e e' he he'
    obtain ⟨r₀, hr₀, -, -, hrevoked⟩ := hmem r hr
    obtain ⟨r₀', hr₀', -, -, hrevoked'⟩ := hmem r' hr'
    rcases hrevoked with hnew | hold <;> rcases hrevoked' with hnew' | hold'
    · rw [serializeDatetime_injective (Option.some.inj (he.symm.trans hnew)),
        serializeDatetime_injective (Option.some.inj (he'.symm.trans hnew'))]
      exact fun hclash => hclash.2 Iff.rfl
    · rw [serializeDatetime_injective (Option.some.inj (he.symm.trans hnew))]
      exact happart r₀' hr₀' e' (hold'.symm.trans he')
    · rw [serializeDatetime_injective (Option.some.inj (he'.symm.trans hnew'))]
      exact fun hclash => happart r₀ hr₀ e (hold.symm.trans he) hclash.symm
    · exact h.revoked r₀ hr₀ r₀' hr₀' e e' (hold.symm.trans he) (hold'.symm.trans he')

/-- A rotation leaves the times as they are. -/
theorem InOrder.rotate (h : InOrder table) {table' : CredentialTable} {c : UUID} {current new : Digest}
    (hrows : table'.rows = table.rows.map (CredentialTable.rotateRow c current new)) :
    InOrder table' := by
  have hmem : ∀ r ∈ table'.rows, ∃ r₀ ∈ table.rows, r.credentialId = r₀.credentialId ∧
      r.createdAt = r₀.createdAt ∧ r.revokedAt = r₀.revokedAt := by
    intro r hr
    rw [hrows] at hr
    obtain ⟨r₀, hr₀, rfl⟩ := List.mem_map.1 hr
    refine ⟨r₀, hr₀, ?_⟩
    unfold CredentialTable.rotateRow
    split
    · exact ⟨rfl, rfl, rfl⟩
    · exact ⟨rfl, rfl, rfl⟩
  refine ⟨?_, ?_, ?_, ?_⟩
  · rw [hrows, List.length_map]
    exact h.rows_le
  · intro r hr
    obtain ⟨r₀, hr₀, hid, hcreated, hrevoked⟩ := hmem r hr
    have htimed := h.timed r₀ hr₀
    exact ⟨hid ▸ htimed.credentialId, hcreated ▸ htimed.createdAt, hrevoked ▸ htimed.revokedAt⟩
  · intro r hr r' hr' e e' he he'
    obtain ⟨r₀, hr₀, -, hcreated, -⟩ := hmem r hr
    obtain ⟨r₀', hr₀', -, hcreated', -⟩ := hmem r' hr'
    exact h.created r₀ hr₀ r₀' hr₀' e e' (hcreated.symm.trans he) (hcreated'.symm.trans he')
  · intro r hr r' hr' e e' he he'
    obtain ⟨r₀, hr₀, -, -, hrevoked⟩ := hmem r hr
    obtain ⟨r₀', hr₀', -, -, hrevoked'⟩ := hmem r' hr'
    exact h.revoked r₀ hr₀ r₀' hr₀' e e' (hrevoked.symm.trans he) (hrevoked'.symm.trans he')

variable (zone) in
/-- What a step does to the table. -/
theorem perform_table (table : CredentialTable) (a : Action) : (perform zone table a).1 =
    match a with
    | .issue args t c now fault => (issue table args t c now fault).1
    | .authenticate _ _ => table
    | .revoke c now fault => (revoke zone table c now fault).1
    | .rotate c t t' now fault => (rotate zone table c t t' now fault).1 := by
  cases a with
  | issue args t c now fault =>
    simp only [perform]
    split <;> simp_all
  | authenticate t fault =>
    simp only [perform]
    split <;> rfl
  | revoke c now fault =>
    simp only [perform]
    split <;> simp_all
  | rotate c t t' now fault =>
    simp only [perform]
    split <;> simp_all

/-- A step without a clash keeps the order. -/
theorem InOrder.step (h : InOrder table) {a : Action} (hok : Clashless table es a) :
    InOrder (perform zone table a).1 := by
  rw [perform_table]
  cases a with
  | issue args t c now fault =>
    rcases issue_table table args t c now fault with
      heq | ⟨d, row, hd, hid, hcreated, hrevoked, hroom, hrows⟩
    · show InOrder (issue table args t c now fault).1
      rw [heq]
      exact h
    · exact h.insert hid hcreated hrevoked hroom hrows (hok d hd)
  | authenticate t fault => exact h
  | revoke c now fault =>
    rcases revoke_table zone table c now fault with heq | ⟨d, hd, heq⟩
    · show InOrder (revoke zone table c now fault).1
      rw [heq]
      exact h
    · show InOrder (revoke zone table c now fault).1
      rw [heq]
      exact h.setRevokedAt (hok d hd)
  | rotate c t t' now fault =>
    rcases rotate_table zone table c t t' now fault with heq | hrows
    · show InOrder (Credentials.rotate zone table c t t' now fault).1
      rw [heq]
      exact h
    · exact h.rotate hrows

/-- **Credentials in order.** In a run in which no clock reading clashes with a time that its column
holds, the longest revoked credentials are pruned, and the list has the newest credential first. -/
theorem credentials_in_order
    (h : Machine.Reaches (step zone) Clashless CredentialTable.empty table es) :
    PrunesEarliest zone table ∧ ListsNewestFirst zone table := by
  have horder : InOrder table := by
    refine h.invariant (I := fun table _ => InOrder table) InOrder.empty ?_
    intro table es a table' out hinv hok hstep
    obtain rfl := congrArg Prod.fst (Option.some.inj hstep)
    exact hinv.step hok
  exact ⟨horder.prunesEarliest zone,
    (listsNewestFirst_iff zone horder.rows_le horder.timed).2 horder.created⟩

end Runs

section Sample

def otherPhone : UUID := ⟨9, by decide⟩

/-- A microsecond after `sampleNow`, which is a whole second. -/
def sampleLater : DateTime := ⟨⟨⟨2026, 7, 20, 12, 0, 0, 1⟩, by decide⟩, some 0⟩

/-- A second after it. -/
def sampleNextSecond : DateTime := ⟨⟨⟨2026, 7, 20, 12, 0, 1, 0⟩, by decide⟩, some 0⟩

def issueOther (now : DateTime) : Action :=
  .issue ⟨"phone-2".toList, "Phone".toList, none⟩ secondToken otherPhone now .none

/-- The second pairing does not clash with the first one. -/
theorem clashless_phones : Machine.Allowed (step fun _ => .ok 0) Clashless CredentialTable.empty []
    [issuePhone, issueOther sampleNextSecond] := by
  refine ⟨fun d _ row hrow => absurd hrow List.not_mem_nil, fun table out hstep => ⟨?_, fun _ _ _ => trivial⟩⟩
  obtain rfl := congrArg Prod.fst (Option.some.inj hstep)
  have hcreated : (perform (fun _ => .ok 0) CredentialTable.empty issuePhone).1.rows.map
      (·.createdAt) = [serializeDatetime sampleNow.wall] := by decide +kernel
  intro d hd row hrow d' hd'
  obtain rfl := Except.ok.inj (show Except.ok sampleNextSecond.wall = .ok d from hd)
  have hmem : row.createdAt ∈ [serializeDatetime sampleNow.wall] :=
    hcreated ▸ List.mem_map_of_mem hrow
  rw [hd'] at hmem
  rw [serializeDatetime_injective (List.mem_singleton.1 hmem)]
  decide

/-- Two phones are paired at whole seconds. -/
theorem phones_in_order : ∃ table es,
    Machine.run (step fun _ => .ok 0) CredentialTable.empty [issuePhone, issueOther sampleNextSecond] =
      some (table, es) ∧
    PrunesEarliest (fun _ => .ok 0) table ∧ ListsNewestFirst (fun _ => .ok 0) table := by
  have hsome : (Machine.run (step fun _ => .ok 0) CredentialTable.empty
      [issuePhone, issueOther sampleNextSecond]).isSome = true := by decide +kernel
  obtain ⟨⟨table, es⟩, hrun⟩ := Option.isSome_iff_exists.1 hsome
  exact ⟨table, es, hrun, credentials_in_order (Machine.reaches_of_run clashless_phones hrun)⟩

/-- Two phones are paired within one second, the first of them at its start: it is listed first. -/
theorem phones_out_of_order : sampleNow.wall.micros < sampleLater.wall.micros ∧ ∃ table es,
    Machine.run (step fun _ => .ok 0) CredentialTable.empty [issuePhone, issueOther sampleLater] =
      some (table, es) ∧
    ¬ ListsNewestFirst (fun _ => .ok 0) table := by
  refine ⟨by decide +kernel, ?_⟩
  have hlist : ((Machine.run (step fun _ => .ok 0) CredentialTable.empty
      [issuePhone, issueOther sampleLater]).map fun p =>
        (listCredentials (fun _ => .ok 0) p.1 .none).map (·.map (·.createdAt))) =
      some (.ok [sampleNow.wall, sampleLater.wall]) := by
    decide +kernel
  obtain ⟨⟨table, es⟩, hrun, hcreated⟩ := Option.map_eq_some_iff.1 hlist
  refine ⟨table, es, hrun, ?_⟩
  rintro ⟨credentials, hok, -, hnewest⟩
  dsimp only at hcreated
  rw [hok] at hcreated
  have hmap : credentials.map (·.createdAt) = [sampleNow.wall, sampleLater.wall] :=
    Except.ok.inj hcreated
  have hpair : (credentials.map (·.createdAt)).Pairwise fun a b => b.micros ≤ a.micros :=
    List.pairwise_map.2 hnewest
  rw [hmap] at hpair
  have hle := List.rel_of_pairwise_cons hpair List.mem_cons_self
  revert hle
  decide +kernel

end Sample

end GoffyHub.Credentials
