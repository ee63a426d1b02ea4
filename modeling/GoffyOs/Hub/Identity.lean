import GoffyOs.Lib.Checks
import GoffyOs.Python.Base64
import GoffyOs.Python.DateTimeOrder
import GoffyOs.Python.JsonLoads
import GoffyOs.Python.Sha256
import GoffyOs.Python.Uuid

/-!
# The identity of a Hub (`goffy_hub/identity.py`)

The Hub keeps its id, the seed of its fingerprint and the time of its creation in a file of its own. The
seed, the id and the clock are arguments, and what the system says of the directories and of the file is
data.

* `loads_identityText`: the text of an identity reads back as its four members;
* `created_identity_loads`: the file that `_create` has written is loaded as what `_create` returned, and
  is not too large.
-/

namespace GoffyHub.Identity

open Python

-- `decide` looks at the members of a list one by one
attribute [local instance (high)] List.decidableBAll

/-- `HUB_IDENTITY_SCHEMA_VERSION`. -/
def hubIdentitySchemaVersion : Str := "goffy.hub.identity.v1".toList
def hubIdentitySeedBytes : ℕ := 32
def maxIdentityFileBytes : ℕ := 2048

/-- `FINGERPRINT_DOMAIN`. -/
def fingerprintDomain : Bytes := utf8 "goffy-hub-identity-fingerprint-v1".toList ++ [0]

/-- `HubIdentityStoreUnavailableError`, and the built-in exceptions that are not caught. -/
inductive IdentityError
  | unavailable (message : String)
  | exn (e : Exn)
  deriving DecidableEq

/-- `HubIdentity`. -/
structure HubIdentity where
  hubId : UUID
  fingerprint : Str
  createdAt : NaiveDateTime
  deriving DecidableEq

/-! ### Directories and files -/

/-- What `lstat` says of a directory. -/
structure DirectoryStat where
  isSymlink : Bool
  isDirectory : Bool
  mode : ℕ
  uid : ℕ

/-- The process, and the directories from the one of the file up to the root. -/
structure Host where
  posix : Bool
  currentUser : ℕ
  directory : Option DirectoryStat
  parents : List (Option DirectoryStat)

/-- What `lstat` and `fstat` say of the file, and its bytes. -/
structure IdentityFile where
  isSymlink : Bool
  isRegular : Bool
  mode : ℕ
  uid : ℕ
  content : Bytes

/-- One directory of the chain. -/
def validateDirectory : Option DirectoryStat → Except IdentityError Unit
  | none => throw (.unavailable "Hub identity directory is unavailable")
  | some directory =>
    if directory.isSymlink = true ∨ directory.isDirectory = false then
      throw (.unavailable "Hub identity directory must not be a symlink")
    else if directory.mode &&& 0o022 ≠ 0 ∧ directory.mode &&& 0o1000 = 0 then
      throw (.unavailable "Hub identity directory chain must not be group/world writable")
    else return ()

/-- `_validate_private_directory_chain`. -/
def validatePrivateDirectoryChain (host : Host) : Except IdentityError Unit :=
  if host.posix = false then return ()
  else do
    (host.directory :: host.parents).forM validateDirectory
    if host.directory.any (fun directory => directory.uid ≠ host.currentUser) = true then
      throw (.unavailable "Hub identity parent must be owned by this user")

/-- The line ends of a file that is read as text. -/
def universalNewlines : Str → Str
  | '\r' :: '\n' :: s => '\n' :: universalNewlines s
  | '\r' :: s => '\n' :: universalNewlines s
  | c :: s => c :: universalNewlines s
  | [] => []

/-- `_read_identity_file`. -/
def readIdentityFile (host : Host) (file : IdentityFile) : Except IdentityError Str :=
  if file.isRegular = false then throw (.unavailable "Hub identity path must be a regular file")
  else if host.posix = true ∧ file.mode &&& 0o077 ≠ 0 then
    throw (.unavailable "Hub identity file must be owner-only")
  else if host.posix = true ∧ file.uid ≠ host.currentUser then
    throw (.unavailable "Hub identity file must be owned by this user")
  else if maxIdentityFileBytes < file.content.length then
    throw (.unavailable "Hub identity file is too large")
  else match decodeUtf8 file.content with
    | some text => return (universalNewlines text).take (maxIdentityFileBytes + 1)
    | none => throw (.exn .valueError)

/-! ### Values -/

/-- `_as_utc`. -/
def asUtc (value : DateTime) : Except IdentityError NaiveDateTime :=
  if value.offset = none then
    throw (.unavailable "Hub identity timestamps must be timezone-aware")
  else match astimezoneUtc (fun _ => .ok 0) value with
    | .ok utc => return utc
    | .error e => throw (.exn e)

/-- `_parse_datetime`. -/
def parseIdentityDatetime (value : Str) : Except IdentityError NaiveDateTime :=
  match fromisoformat (replace "Z".toList "+00:00".toList value) with
  | some parsed => asUtc parsed
  | none => throw (.unavailable "Hub identity timestamp is invalid")

/-- `_encode_identity_seed`. -/
def encodeIdentitySeed (seed : Bytes) : Str :=
  ((urlsafeB64encode seed).reverse.dropWhile (· = '=')).reverse

/-- `_decode_identity_seed`. -/
def decodeIdentitySeed (encoded : Str) : Except IdentityError Bytes :=
  match urlsafeB64decode (encoded ++ padding encoded) with
  | none => throw (.unavailable "Hub identity material is invalid")
  | some seed =>
    if seed.length ≠ hubIdentitySeedBytes then
      throw (.unavailable "Hub identity material is invalid")
    else return seed

/-- `_fingerprint_identity_seed`. -/
def fingerprintIdentitySeed (seed : Bytes) : Except IdentityError Str :=
  if seed.length ≠ hubIdentitySeedBytes then throw (.unavailable "Hub identity material is invalid")
  else return "sha256:".toList ++ hex (sha256 (fingerprintDomain ++ seed)).val

/-! ### Reading -/

/-- `_read_required_string`. -/
def readRequiredString (payload : List (Str × Json)) (key : Str) : Except IdentityError Str :=
  match payload.lookup key with
  | some (.str value) =>
    if value = [] then throw (.unavailable "Hub identity file is invalid") else return value
  | _ => throw (.unavailable "Hub identity file is invalid")

/-- The keys of an identity file. -/
def identityKeys : List Str :=
  ["schemaVersion".toList, "hubId".toList, "identitySeed".toList, "createdAt".toList]

/-- `_parse_identity_payload`. -/
def parseIdentityPayload (payload : List (Str × Json)) : Except IdentityError HubIdentity := do
  if ¬ ((∀ key ∈ payload.map Prod.fst, key ∈ identityKeys) ∧
      ∀ key ∈ identityKeys, key ∈ payload.map Prod.fst) then
    throw (.unavailable "Hub identity file is invalid")
  let schemaVersion ← readRequiredString payload "schemaVersion".toList
  if schemaVersion ≠ hubIdentitySchemaVersion then
    throw (.unavailable "Hub identity schema is unsupported")
  let rawHubId ← readRequiredString payload "hubId".toList
  match parseUuid rawHubId with
  | none => throw (.unavailable "Hub identity ID is invalid")
  | some hubId =>
    if uuidStr hubId ≠ rawHubId then throw (.unavailable "Hub identity ID must be canonical")
    let seed ← decodeIdentitySeed (← readRequiredString payload "identitySeed".toList)
    let createdAt ← parseIdentityDatetime (← readRequiredString payload "createdAt".toList)
    return { hubId, fingerprint := ← fingerprintIdentitySeed seed, createdAt }

/-- `_load_existing`. `float` is the `repr` of a float. -/
def loadExisting (float : Str → Str) (host : Host) (file : IdentityFile) :
    Except IdentityError HubIdentity := do
  if file.isSymlink = true ∨ file.isRegular = false then
    throw (.unavailable "Hub identity path must be a regular file")
  validatePrivateDirectoryChain host
  match loads float (← readIdentityFile host file) with
  | .error .jsonDecodeError => throw (.unavailable "Hub identity file is unavailable")
  | .error .valueError | .error .surrogate => throw (.exn .valueError)
  | .ok (.object payload) => parseIdentityPayload payload
  | .ok _ => throw (.unavailable "Hub identity file is invalid")

/-! ### Writing -/

/-- The payload of an identity file. -/
def identityPayload (seed : Bytes) (hubId : UUID) (createdAt : NaiveDateTime) : List (Str × Str) :=
  [("schemaVersion".toList, hubIdentitySchemaVersion), ("hubId".toList, uuidStr hubId),
    ("identitySeed".toList, encodeIdentitySeed seed),
    ("createdAt".toList, serializeDatetime createdAt)]

def encodedPayload (seed : Bytes) (hubId : UUID) (createdAt : NaiveDateTime) : Bytes :=
  utf8 (dumpsTexts (identityPayload seed hubId createdAt) ++ ['\n'])

/-- A new file of the process, for nobody else. -/
def newIdentityFile (host : Host) (content : Bytes) : IdentityFile where
  isSymlink := false
  isRegular := true
  mode := 0o600
  uid := host.currentUser
  content := content

/-- What comes of opening the new file. -/
inductive Opened
  | created
  | exists (file : IdentityFile)
  | failed

/-- `_create`, with the file that is there afterwards. `written` says whether the bytes were written. -/
def create (float : Str → Str) (host : Host) (opened : Opened) (written : Bool) (seed : Bytes)
    (hubId : UUID) (clock : DateTime) : Except IdentityError (HubIdentity × IdentityFile) := do
  if seed.length ≠ hubIdentitySeedBytes then
    throw (.unavailable "generated Hub identity material is invalid")
  let createdAt ← asUtc clock
  validatePrivateDirectoryChain host
  match opened with
  | .failed => throw (.unavailable "Hub identity file could not be created safely")
  | .exists file => return (← loadExisting float host file, file)
  | .created =>
    if written = false then throw (.unavailable "Hub identity file could not be written")
    let fingerprint ← fingerprintIdentitySeed seed
    return ({ hubId, fingerprint, createdAt },
      newIdentityFile host (encodedPayload seed hubId createdAt))

/-! ### The text of an identity -/

section Text

variable {seed : Bytes} {hubId : UUID} {createdAt : NaiveDateTime}

theorem printable_encodeIdentitySeed : Python.Printable (encodeIdentitySeed seed) := by
  rw [encodeIdentitySeed, rstrip_urlsafeB64encode]
  intro c hc
  obtain ⟨d, hd, rfl⟩ := mem_urlsafeDigits hc
  obtain ⟨hnone, -, hlow, hhigh⟩ := urlsafeChar_plain hd
  simp only [List.mem_cons, List.not_mem_nil, or_false, not_or] at hnone
  exact ⟨by simp [isPlain, hlow, hnone], hhigh⟩

theorem printable_uuidStr : Python.Printable (uuidStr hubId) := by
  have hdigit : ∀ n < 16, isPlain (Positional.digitChar n) = true ∧
      (Positional.digitChar n).toNat < 0x7f := by decide
  intro c hc
  rcases mem_uuidStr hc with hc | rfl
  · obtain ⟨n, hn, rfl⟩ := Positional.mem_write (by decide) hc
    exact hdigit n hn
  · decide

theorem printable_serializeDatetime : Python.Printable (serializeDatetime createdAt) :=
  of_mem_serializeDatetime (by decide) (by decide)

theorem printable_identityPayload : ∀ m ∈ identityPayload seed hubId createdAt,
    Python.Printable m.1 ∧ Python.Printable m.2 := by
  simp only [identityPayload, List.forall_mem_cons]
  exact ⟨⟨by unfold Python.Printable; decide, by unfold Python.Printable; decide⟩,
    ⟨by unfold Python.Printable; decide, printable_uuidStr⟩,
    ⟨by unfold Python.Printable; decide, printable_encodeIdentitySeed⟩,
    ⟨by unfold Python.Printable; decide, printable_serializeDatetime⟩, by simp⟩

/-- The members in the order of their keys. -/
theorem sortMembers_identityPayload : sortMembers (identityPayload seed hubId createdAt) =
    [("createdAt".toList, serializeDatetime createdAt), ("hubId".toList, uuidStr hubId),
      ("identitySeed".toList, encodeIdentitySeed seed),
      ("schemaVersion".toList, hubIdentitySchemaVersion)] := rfl

/-- The text of an identity reads back as its members. -/
theorem loads_identityPayload (float : Str → Str) :
    loads float (dumpsTexts (identityPayload seed hubId createdAt) ++ ['\n']) =
      .ok (.object [("createdAt".toList, .str (serializeDatetime createdAt)),
        ("hubId".toList, .str (uuidStr hubId)),
        ("identitySeed".toList, .str (encodeIdentitySeed seed)),
        ("schemaVersion".toList, .str hubIdentitySchemaVersion)]) := by
  have hkeys : ((identityPayload seed hubId createdAt).map Prod.fst).Nodup :=
    show identityKeys.Nodup by decide
  have hne : identityPayload seed hubId createdAt ≠ [] := List.cons_ne_nil _ _
  rw [loads_dumpsTexts hne printable_identityPayload hkeys, sortMembers_identityPayload]
  rfl

/-! ### What is loaded -/

theorem decodeIdentitySeed_encodeIdentitySeed (hseed : seed.length = hubIdentitySeedBytes) :
    decodeIdentitySeed (encodeIdentitySeed seed) = .ok seed := by
  rw [decodeIdentitySeed, encodeIdentitySeed, rstrip_urlsafeB64encode, urlsafeB64decode_padded]
  exact if_neg (not_not.2 hseed)

theorem parseIdentityDatetime_serializeDatetime :
    parseIdentityDatetime (serializeDatetime createdAt) = .ok createdAt := by
  rw [parseIdentityDatetime, replace_serializeDatetime, fromisoformat_isoformatUtc]
  rfl

theorem urlsafeDigits_ne_nil (hseed : seed.length = hubIdentitySeedBytes) : urlsafeDigits seed ≠ [] := by
  match seed, hseed with
  | a :: b :: c :: rest, _ => exact List.cons_ne_nil _ _

theorem readRequiredString_eq {payload : List (Str × Json)} {key value : Str}
    (h : payload.lookup key = some (.str value)) (hne : value ≠ []) :
    readRequiredString payload key = .ok value := by
  rw [readRequiredString, h]
  exact if_neg hne

/-- The members of an identity are parsed to it. -/
theorem parseIdentityPayload_identity {fingerprint : Str} (hseed : seed.length = hubIdentitySeedBytes)
    (hfingerprint : fingerprintIdentitySeed seed = .ok fingerprint) :
    parseIdentityPayload [("createdAt".toList, .str (serializeDatetime createdAt)),
        ("hubId".toList, .str (uuidStr hubId)),
        ("identitySeed".toList, .str (encodeIdentitySeed seed)),
        ("schemaVersion".toList, .str hubIdentitySchemaVersion)] =
      .ok { hubId, fingerprint, createdAt } := by
  have hkeys : (∀ key ∈ ["createdAt".toList, "hubId".toList, "identitySeed".toList,
      "schemaVersion".toList], key ∈ identityKeys) ∧ ∀ key ∈ identityKeys, key ∈
        ["createdAt".toList, "hubId".toList, "identitySeed".toList, "schemaVersion".toList] := by
    decide
  have hne : encodeIdentitySeed seed ≠ [] := by
    rw [encodeIdentitySeed, rstrip_urlsafeB64encode]
    exact urlsafeDigits_ne_nil hseed
  have hcreated : serializeDatetime createdAt ≠ [] := by
    rw [serializeDatetime_eq]
    simp
  generalize hpayload : [("createdAt".toList, Json.str (serializeDatetime createdAt)),
    ("hubId".toList, .str (uuidStr hubId)), ("identitySeed".toList, .str (encodeIdentitySeed seed)),
    ("schemaVersion".toList, .str hubIdentitySchemaVersion)] = payload
  have hmap : payload.map Prod.fst = ["createdAt".toList, "hubId".toList, "identitySeed".toList,
      "schemaVersion".toList] := by
    rw [← hpayload]
    rfl
  rw [← hmap] at hkeys
  rw [parseIdentityPayload, if_neg (not_not.2 hkeys)]
  have hlookups : payload.lookup "schemaVersion".toList = some (.str hubIdentitySchemaVersion) ∧
      payload.lookup "hubId".toList = some (.str (uuidStr hubId)) ∧
      payload.lookup "identitySeed".toList = some (.str (encodeIdentitySeed seed)) ∧
      payload.lookup "createdAt".toList = some (.str (serializeDatetime createdAt)) := by
    rw [← hpayload]
    exact ⟨rfl, rfl, rfl, rfl⟩
  obtain ⟨hschema, hid, hidentity, htime⟩ := hlookups
  simp only [bind, Except.bind, pure, Except.pure,
    readRequiredString_eq hschema (by decide), readRequiredString_eq hid (uuidStr_ne_nil hubId),
    readRequiredString_eq hidentity hne, readRequiredString_eq htime hcreated, parseUuid_uuidStr,
    decodeIdentitySeed_encodeIdentitySeed hseed, parseIdentityDatetime_serializeDatetime,
    hfingerprint, ne_eq, not_true_eq_false, if_false]

/-! ### The file -/

theorem universalNewlines_of_notMem : ∀ {s : Str}, '\r' ∉ s → universalNewlines s = s
  | [], _ => rfl
  | c :: s, h => by
    rw [List.mem_cons, not_or] at h
    rw [universalNewlines, universalNewlines_of_notMem h.2]
    · exact fun _ heq _ => h.1 heq.symm
    · exact fun heq => h.1 heq.symm

theorem length_serializeDatetime_le : (serializeDatetime createdAt).length ≤ 27 := by
  rw [serializeDatetime_eq]
  simp only [List.length_append, List.length_cons, List.length_nil, length_isoDate, isoTime,
    Positional.length_write]
  split <;> simp

theorem length_uuidStr : (uuidStr hubId).length = 36 := by
  simp only [uuidStr, List.length_append, List.length_cons, List.length_take, List.length_drop,
    length_uuidHex]
  omega

theorem length_encodeIdentitySeed_le (hseed : seed.length = hubIdentitySeedBytes) :
    (encodeIdentitySeed seed).length ≤ 43 := by
  have h := length_base64Digits_le (seed.map UInt8.toNat)
  rw [List.length_map, hseed, hubIdentitySeedBytes] at h
  rw [encodeIdentitySeed, rstrip_urlsafeB64encode, urlsafeDigits, List.length_map]
  omega

/-- The text of the file is ASCII. -/
theorem ascii_dumpsTexts : ∀ c ∈ dumpsTexts (identityPayload seed hubId createdAt),
    c.toNat < 0x80 ∧ c ≠ '\r' := by
  have hprintable : ∀ c : Char, isPlain c = true ∧ c.toNat < 0x7f → c.toNat < 0x80 ∧ c ≠ '\r' := by
    rintro c ⟨hplain, hascii⟩
    refine ⟨hascii.trans (by decide), ?_⟩
    rintro rfl
    exact absurd hplain (by decide)
  rw [dumpsTexts_eq printable_identityPayload, sortMembers_identityPayload]
  refine of_mem_objectOfTexts (by decide) ?_
  rw [← sortMembers_identityPayload]
  intro m hm
  obtain ⟨hkey, hvalue⟩ := printable_identityPayload m
    ((List.perm_insertionSort _ (identityPayload seed hubId createdAt)).mem_iff.1 hm)
  exact ⟨fun c hc => hprintable c (hkey c hc), fun c hc => hprintable c (hvalue c hc)⟩

theorem length_dumpsTexts_le (hseed : seed.length = hubIdentitySeedBytes) :
    (dumpsTexts (identityPayload seed hubId createdAt)).length ≤ 200 := by
  have htime := @length_serializeDatetime_le createdAt
  have hmaterial := length_encodeIdentitySeed_le hseed
  rw [dumpsTexts_eq printable_identityPayload, sortMembers_identityPayload]
  have hversion : hubIdentitySchemaVersion.length = 21 := by decide
  simp only [objectOfTexts, List.map_cons, List.map_nil, commaJoin, quoted, List.length_append,
    List.length_cons, List.length_nil, length_uuidStr, hversion, String.length_toList]
  have hkeys : "createdAt".length = 9 ∧ "hubId".length = 5 ∧ "identitySeed".length = 12 ∧
      "schemaVersion".length = 13 := by decide
  omega

/-- What `_read_identity_file` reads of a new identity. -/
theorem readIdentityFile_newIdentityFile (host : Host)
    (hseed : seed.length = hubIdentitySeedBytes) :
    (encodedPayload seed hubId createdAt).length ≤ maxIdentityFileBytes ∧
      readIdentityFile host (newIdentityFile host (encodedPayload seed hubId createdAt)) =
        .ok (dumpsTexts (identityPayload seed hubId createdAt) ++ ['\n']) := by
  have hascii : ∀ c ∈ dumpsTexts (identityPayload seed hubId createdAt) ++ ['\n'],
      c.toNat < 0x80 ∧ c ≠ '\r' := by
    intro c hc
    rcases List.mem_append.1 hc with hc | hc
    · exact ascii_dumpsTexts c hc
    · rw [List.mem_singleton.1 hc]
      decide
  have hlength := @length_dumpsTexts_le seed hubId createdAt hseed
  have htext : (dumpsTexts (identityPayload seed hubId createdAt) ++ ['\n']).length ≤ 201 := by
    rw [List.length_append, List.length_singleton]
    omega
  have hbytes : (encodedPayload seed hubId createdAt).length ≤ maxIdentityFileBytes :=
    ((byteLength_of_ascii fun c hc => (hascii c hc).1).trans_le htext).trans (by decide)
  refine ⟨hbytes, ?_⟩
  have hreturn : ¬ '\r' ∈ dumpsTexts (identityPayload seed hubId createdAt) ++ ['\n'] :=
    fun hmem => (hascii _ hmem).2 rfl
  have hsmall : ¬ maxIdentityFileBytes <
      (newIdentityFile host (encodedPayload seed hubId createdAt)).content.length :=
    Nat.not_lt.2 hbytes
  rw [readIdentityFile, if_neg nofun, if_neg fun h => absurd h.2 (by simp [newIdentityFile]),
    if_neg fun h => h.2 rfl, if_neg hsmall]
  dsimp only [newIdentityFile]
  rw [encodedPayload, decodeUtf8_utf8]
  dsimp only
  rw [universalNewlines_of_notMem hreturn, List.take_of_length_le (htext.trans (by decide))]
  rfl

end Text

/-- What `_create` returns and leaves when it has created the file. -/
theorem create_created {float : Str → Str} {host : Host} {written : Bool} {seed : Bytes} {hubId : UUID}
    {clock : DateTime} {identity : HubIdentity} {file : IdentityFile}
    (h : create float host .created written seed hubId clock = .ok (identity, file)) :
    seed.length = hubIdentitySeedBytes ∧ validatePrivateDirectoryChain host = .ok () ∧
      ∃ createdAt fingerprint, fingerprintIdentitySeed seed = .ok fingerprint ∧
        identity = { hubId, fingerprint, createdAt } ∧
        file = newIdentityFile host (encodedPayload seed hubId createdAt) := by
  rw [create, Checks.throw_bind_eq_ok] at h
  obtain ⟨hseed, h⟩ := h
  obtain ⟨createdAt, -, h⟩ := Checks.bind_eq_ok.1 h
  obtain ⟨⟨⟩, hchain, h⟩ := Checks.bind_eq_ok.1 h
  rw [Checks.throw_bind_eq_ok] at h
  obtain ⟨fingerprint, hfingerprint, h⟩ := Checks.bind_eq_ok.1 h.2
  obtain ⟨rfl, rfl⟩ := Prod.mk.inj (Except.ok.inj h)
  exact ⟨not_not.1 hseed, hchain, createdAt, fingerprint, hfingerprint, rfl, rfl⟩

/-- **A new identity.** The file that `_create` has written is loaded as the identity that `_create`
returned, and is no larger than a file that is read. -/
theorem created_identity_loads (float : Str → Str) (host : Host) (written : Bool) (seed : Bytes)
    (hubId : UUID) (clock : DateTime) (identity : HubIdentity) (file : IdentityFile)
    (h : create float host .created written seed hubId clock = .ok (identity, file)) :
    loadExisting float host file = .ok identity ∧ file.content.length ≤ maxIdentityFileBytes := by
  obtain ⟨hseed, hchain, createdAt, fingerprint, hfingerprint, rfl, rfl⟩ := create_created h
  obtain ⟨hbytes, hread⟩ := @readIdentityFile_newIdentityFile seed hubId createdAt host hseed
  refine ⟨?_, hbytes⟩
  rw [loadExisting, if_neg (by simp [newIdentityFile]), hchain, Checks.ok_bind, hread,
    Checks.ok_bind, loads_identityPayload]
  exact parseIdentityPayload_identity hseed hfingerprint

/-- A directory of the user, below a root that only the superuser may write. -/
def demoHost : Host where
  posix := true
  currentUser := 501
  directory := some ⟨false, true, 0o700, 501⟩
  parents := [some ⟨false, true, 0o755, 0⟩]

/-- A second after midnight, two hours east of Greenwich. -/
def demoClock : DateTime where
  wall := ⟨⟨2026, 7, 20, 0, 0, 1, 250000⟩, by decide⟩
  offset := some 7200000000

theorem demo_identity_loads : ∃ identity file,
    create id demoHost .created true (List.replicate 32 255) 7 demoClock = .ok (identity, file) ∧
      loadExisting id demoHost file = .ok identity ∧
      file.content.length ≤ maxIdentityFileBytes :=
  ⟨_, _, rfl, created_identity_loads id demoHost true (List.replicate 32 255) 7 demoClock _ _ rfl⟩

end GoffyHub.Identity
