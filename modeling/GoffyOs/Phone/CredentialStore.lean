import GoffyOs.Phone.HubEndpoint
import GoffyOs.Phone.HubLink
import GoffyOs.Phone.TerminalAuditStore

/-!
# The stored credential (`AndroidHubCredentialStore.kt`, `HubCredentialStore.kt`)

The phone keeps one credential in a file, as a JSON record that is sealed with a key of the keystore. A
record of version 3 has the time when the token was issued; one of version 2 is read with the time when
the credential was created.

* `IsRecord` says what a record is, and `readRecord_iff` that exactly these are read;
* `load_of_stored` and `load_of_other`: a sealed record is loaded, and any other content is deleted;
* `save_stores`: what is saved is a record that is loaded again.

What comes from outside is in `Platform`, and the answers of the system are arguments. Files and keys are
written and deleted when they are asked to be.
-/

namespace GoffyPhone.CredentialStore

open Kotlin HubLink
open Python (UUID Bytes)

/-! ### What the store uses -/

/-- `java.net.URI`, `java.util.UUID`, `java.time.Instant`, the parser of `kotlinx.serialization`, the
decoding of UTF-8, and the decimal digits beyond ASCII. -/
structure Platform where
  parseUri : Str → Option EndpointUri
  uuidFromString : Str → Option UUID
  instantText : Instant → Str
  parseInstant : Str → Option Instant
  parseToJsonElement : Str → Option JsonElement
  decodeUtf8 : Bytes → Str
  digitBeyond : UInt16 → Option ℕ

/-- `AES/GCM/NoPadding` with the associated data of the store, by key and initialization vector. -/
structure Gcm (Key : Type) where
  encrypt : Key → Bytes → Bytes → Bytes
  decrypt : Key → Bytes → Bytes → Option Bytes

/-- The cipher opens what it sealed, and fails on anything else; its tag has 16 bytes. -/
structure Gcm.Lawful {Key : Type} (gcm : Gcm Key) : Prop where
  decrypt_encrypt : ∀ key iv plaintext, gcm.decrypt key iv (gcm.encrypt key iv plaintext) = some plaintext
  encrypt_of_decrypt : ∀ key iv payload plaintext, gcm.decrypt key iv payload = some plaintext →
    payload = gcm.encrypt key iv plaintext
  length_encrypt : ∀ key iv plaintext, (gcm.encrypt key iv plaintext).length = plaintext.length + 16

/-- The file of the credential, and the key in the keystore. -/
structure Storage (Key : Type) where
  file : Option Bytes
  key : Option Key

/-! ### Accessors -/

section Accessors

variable (platform : Platform)

/-- `digitOf(char, 10)`. -/
def digitOf (u : UInt16) : Option ℕ :=
  if u < 0x80 then if 0x30 ≤ u ∧ u ≤ 0x39 then some (u - 0x30).toNat else none else platform.digitBeyond u

/-- The number of some digits. -/
def digitsValue (s : Str) : Option ℕ :=
  s.foldlM (fun n u => (digitOf platform u).map fun d => 10 * n + d) 0

/-- `String.toIntOrNull`. -/
def toIntOrNull : Str → Option ℤ
  | [] => none
  | c :: s =>
    if c < 0x30 then
      if s = [] then none
      else if c = 0x2d then
        (digitsValue platform s).bind fun n => if n ≤ 2 ^ 31 then some (-(n : ℤ)) else none
      else if c = 0x2b then
        (digitsValue platform s).bind fun n => if n < 2 ^ 31 then some (n : ℤ) else none
      else none
    else (digitsValue platform (c :: s)).bind fun n => if n < 2 ^ 31 then some (n : ℤ) else none

/-- `requiredInt`. -/
def requiredInt (o : JsonObject) (name : String) : Option ℤ :=
  match o.get (lit name) with
  | some (.literal content false) => toIntOrNull platform content
  | _ => none

/-- `requiredString`. -/
def requiredString (o : JsonObject) (name : String) : Option Str :=
  match o.get (lit name) with
  | some (.literal content true) => some content
  | _ => none

/-- `requiredBoolean`. -/
def requiredBoolean (o : JsonObject) (name : String) : Option Bool :=
  match o.get (lit name) with
  | some (.literal content false) =>
    if content = lit "true" then some true else if content = lit "false" then some false else none
  | _ => none

/-- `requiredObject`. -/
def requiredObject (o : JsonObject) (name : String) : Option JsonObject :=
  match o.get (lit name) with
  | some (.object members) => some members
  | _ => none

/-- `requireExactKeys`: the keys are these. -/
def hasExactKeys (o : JsonObject) (expected : List Str) : Bool :=
  (o.all fun m => expected.contains m.1) && expected.all fun key => (o.map (·.1)).contains key

end Accessors

/-! ### Records -/

def schemaVersion : ℤ := 3
def legacySchemaVersion : ℤ := 2
def maxPlaintextBytes : ℕ := 8192
def maxSealedBytes : ℕ := 12288

/-- `RECORD_KEYS_V2`. -/
def recordKeysV2 : List Str :=
  [lit "schemaVersion", lit "endpoint", lit "credentialId", lit "deviceId", lit "accessToken",
    lit "createdAt", lit "hubIdentity"]

/-- `RECORD_KEYS_V3`. -/
def recordKeysV3 : List Str := recordKeysV2 ++ [lit "tokenIssuedAt"]

/-- `recordKeysFor`. -/
def recordKeysFor (version : ℤ) : Option (List Str) :=
  if version = legacySchemaVersion then some recordKeysV2
  else if version = schemaVersion then some recordKeysV3
  else none

/-- `HUB_IDENTITY_KEYS`. -/
def hubIdentityKeys : List Str :=
  [lit "schemaVersion", lit "hubId", lit "fingerprint", lit "createdAt", lit "verifiedBy",
    lit "trustedLanSupported"]

/-- `HubIdentityPin.SCHEMA_VERSION`. -/
def pinSchemaVersion : Str := lit "goffy.hub.identity.v1"

/-- `HubIdentityPin.VERIFIED_BY`. -/
def pinVerifiedBy : Str := lit "loopback_admin_session"

/-- `FINGERPRINT_REGEX.matches`: `^sha256:[0-9a-f]{64}$`. -/
def matchesFingerprint (s : Str) : Bool :=
  s.take 7 = lit "sha256:" && s.length = 71 &&
    (s.drop 7).all fun u => 0x30 ≤ u && u ≤ 0x39 || 0x61 ≤ u && u ≤ 0x66

/-- `HubIdentityPin.create`. -/
def createPin (hubId : UUID) (fingerprint : Str) (createdAt : Instant) : Option HubIdentityPin :=
  if matchesFingerprint fingerprint then some ⟨hubId, fingerprint, createdAt⟩ else none

section Read

variable (platform : Platform) (allowInsecureLoopback : Bool)

/-- `StoredHubCredential.create`. -/
def createCredential (endpoint : Str) (credentialId : UUID) (deviceId accessToken : Str)
    (createdAt tokenIssuedAt : Instant) (hubIdentity : HubIdentityPin) : Option StoredHubCredential :=
  match HubEndpoint.create platform.parseUri endpoint allowInsecureLoopback with
  | .error _ => none
  | .ok _ =>
    StoredHubCredential.create endpoint credentialId deviceId accessToken createdAt tokenIssuedAt hubIdentity

/-- The identity of a record. -/
def readPin (identity : JsonObject) : Option HubIdentityPin := do
  if hasExactKeys identity hubIdentityKeys = false then none
  if (← requiredString identity "schemaVersion") ≠ pinSchemaVersion then none
  if (← requiredString identity "verifiedBy") ≠ pinVerifiedBy then none
  if (← requiredBoolean identity "trustedLanSupported") = true then none
  let hubId ← platform.uuidFromString (← requiredString identity "hubId")
  let fingerprint ← requiredString identity "fingerprint"
  let createdAt ← platform.parseInstant (← requiredString identity "createdAt")
  createPin hubId fingerprint createdAt

/-- The credential of a record, as `load` reads it; `none` is an exception. -/
def readRecord (value : JsonObject) : Option StoredHubCredential := do
  let version ← requiredInt platform value "schemaVersion"
  let keys ← recordKeysFor version
  if hasExactKeys value keys = false then none
  let endpoint ← requiredString value "endpoint"
  let credentialId ← requiredString value "credentialId"
  let deviceId ← requiredString value "deviceId"
  let accessToken ← requiredString value "accessToken"
  let createdAt ← requiredString value "createdAt"
  let tokenIssuedAt ←
    requiredString value (if version = schemaVersion then "tokenIssuedAt" else "createdAt")
  let identity ← requiredObject value "hubIdentity"
  let hubIdentity ← readPin platform identity
  createCredential platform allowInsecureLoopback endpoint (← platform.uuidFromString credentialId)
    deviceId accessToken (← platform.parseInstant createdAt) (← platform.parseInstant tokenIssuedAt)
    hubIdentity

/-- The identity that `save` writes. -/
def pinMembers (pin : HubIdentityPin) : JsonObject :=
  [(lit "schemaVersion", .literal pinSchemaVersion true),
    (lit "hubId", .literal (uuidToString pin.hubId) true),
    (lit "fingerprint", .literal pin.fingerprint true),
    (lit "createdAt", .literal (platform.instantText pin.createdAt) true),
    (lit "verifiedBy", .literal pinVerifiedBy true),
    (lit "trustedLanSupported", .literal (lit "false") false)]

/-- The record that `save` writes. -/
def recordMembers (c : StoredHubCredential) : JsonObject :=
  [(lit "schemaVersion", .literal (lit "3") false),
    (lit "endpoint", .literal c.endpoint true),
    (lit "credentialId", .literal (uuidToString c.credentialId) true),
    (lit "deviceId", .literal c.deviceId true),
    (lit "accessToken", .literal c.accessToken true),
    (lit "createdAt", .literal (platform.instantText c.createdAt) true),
    (lit "tokenIssuedAt", .literal (platform.instantText c.tokenIssuedAt) true),
    (lit "hubIdentity", .object (pinMembers platform c.hubIdentity))]

/-- The bytes of a record. -/
def recordBytes (c : StoredHubCredential) : Bytes :=
  Python.utf8 (toChars (JsonElement.object (recordMembers platform c)).text)

end Read

/-! ### The cipher -/

def gcmIvBytes : ℕ := 12
def gcmTagBytes : ℕ := 16

/-- `MAGIC`. -/
def magic : Bytes := [0x47, 0x4f, 0x46, 0x31]

section Cipher

variable {Key : Type} (gcm : Gcm Key)

/-- What `AndroidKeystoreCredentialCipher.seal` makes of a text. -/
def sealed (key : Key) (iv plaintext : Bytes) : Bytes :=
  magic ++ (UInt8.ofNat iv.length :: (iv ++ gcm.encrypt key iv plaintext))

/-- `AndroidKeystoreCredentialCipher.open`. -/
def openSealed (key : Option Key) (ciphertext : Bytes) : Option Bytes := do
  if ciphertext.length ≤ magic.length + 1 + gcmIvBytes + gcmTagBytes then none
  if ciphertext.take magic.length ≠ magic then none
  if (ciphertext.drop magic.length).head? ≠ some (UInt8.ofNat gcmIvBytes) then none
  let iv := (ciphertext.drop (magic.length + 1)).take gcmIvBytes
  let payload := ciphertext.drop (magic.length + 1 + gcmIvBytes)
  gcm.decrypt (← key) iv payload

/-! ### The store -/

variable (platform : Platform) (allowInsecureLoopback : Bool)

/-- The body of the `try` of `load`; `none` is an exception. -/
def readCredential (key : Option Key) (content : Bytes) : Option StoredHubCredential := do
  if maxSealedBytes < content.length then none
  let plaintext ← openSealed gcm key content
  if maxPlaintextBytes < plaintext.length then none
  match ← platform.parseToJsonElement (platform.decodeUtf8 plaintext) with
  | .object value => readRecord platform allowInsecureLoopback value
  | _ => none

/-- `load`. -/
def load (s : Storage Key) : HubCredentialLoadResult × Storage Key :=
  match s.file with
  | none => (.empty, s)
  | some content =>
    match readCredential gcm platform allowInsecureLoopback s.key content with
    | some credential => (.loaded credential, s)
    | none => (.corrupt, ⟨none, none⟩)

/-- `HubCredentialStoreException`, by its message. -/
abbrev StoreException := Str

/-- What the system does while a credential is saved: the key that it makes where there is none and the
vector of the cipher, unless one of them fails, and whether the file is written. -/
structure SaveAnswers (Key : Type) where
  newKey : Option Key
  iv : Option Bytes
  written : Bool

/-- `cipher.seal`, and the key that is in the keystore after it. -/
def sealWith (answers : SaveAnswers Key) (key : Option Key) (plaintext : Bytes) :
    Option Key × Option Bytes :=
  match key.or answers.newKey with
  | none => (none, none)
  | some key =>
    (some key, answers.iv.bind fun iv =>
      if iv.length = gcmIvBytes then some (sealed gcm key iv plaintext) else none)

/-- `sameAuthority`. -/
def sameAuthority (c other : StoredHubCredential) : Bool :=
  c.endpoint = other.endpoint && c.credentialId = other.credentialId && c.deviceId = other.deviceId &&
    c.accessToken = other.accessToken && c.createdAt = other.createdAt &&
    c.tokenIssuedAt = other.tokenIssuedAt && c.hubIdentity.hubId = other.hubIdentity.hubId &&
    c.hubIdentity.fingerprint = other.hubIdentity.fingerprint &&
    c.hubIdentity.createdAt = other.hubIdentity.createdAt

/-- `save`. -/
def save (answers : SaveAnswers Key) (credential : StoredHubCredential) (s : Storage Key) :
    Except StoreException StoredHubCredential × Storage Key :=
  let plaintext := recordBytes platform credential
  if maxPlaintextBytes < plaintext.length then
    (.error (lit "Hub credential record is too large."), s)
  else
    match sealWith gcm answers s.key plaintext with
    | (key, none) => (.error (lit "Hub credential encryption failed."), { s with key := key })
    | (key, some content) =>
      if content = [] ∨ maxSealedBytes < content.length then
        (.error (lit "Encrypted Hub credential record is invalid."), { s with key := key })
      else if answers.written = false then
        (.error (lit "Hub credential persistence failed."), { s with key := key })
      else
        match load gcm platform allowInsecureLoopback ⟨some content, key⟩ with
        | (.loaded persisted, s') =>
          if sameAuthority persisted credential then (.ok persisted, s')
          else
            (.error (lit "Hub credential persistence could not be verified."), { s' with file := none })
        | (_, s') =>
          (.error (lit "Hub credential persistence could not be verified."), { s' with file := none })

end Cipher

/-! ### What a record is -/

section Records

variable (platform : Platform) (allowInsecureLoopback : Bool)

/-- A text of the record that the platform reads. -/
def Reads {α : Type} (o : JsonObject) (name : String) (read : Str → Option α) (a : α) : Prop :=
  ∃ s, o.get (lit name) = some (.literal s true) ∧ read s = some a

structure IsPin (identity : JsonObject) (pin : HubIdentityPin) : Prop where
  keys : hasExactKeys identity hubIdentityKeys = true
  schemaVersion : identity.get (lit "schemaVersion") = some (.literal pinSchemaVersion true)
  verifiedBy : identity.get (lit "verifiedBy") = some (.literal pinVerifiedBy true)
  trustedLanSupported : identity.get (lit "trustedLanSupported") = some (.literal (lit "false") false)
  hubId : Reads identity "hubId" platform.uuidFromString pin.hubId
  fingerprint : identity.get (lit "fingerprint") = some (.literal pin.fingerprint true)
  fingerprint_matches : matchesFingerprint pin.fingerprint = true
  createdAt : Reads identity "createdAt" platform.parseInstant pin.createdAt

/-- The object is a record of this version, for a credential that is admitted. -/
structure IsRecord (version : ℤ) (value : JsonObject) (c : StoredHubCredential) : Prop where
  has_version : ∃ s, value.get (lit "schemaVersion") = some (.literal s false) ∧
    toIntOrNull platform s = some version
  keys : ∃ keys, recordKeysFor version = some keys ∧ hasExactKeys value keys = true
  endpoint : value.get (lit "endpoint") = some (.literal c.endpoint true)
  endpoint_accepted : ∃ e, HubEndpoint.create platform.parseUri c.endpoint allowInsecureLoopback = .ok e
  credentialId : Reads value "credentialId" platform.uuidFromString c.credentialId
  deviceId : value.get (lit "deviceId") = some (.literal c.deviceId true)
  accessToken : value.get (lit "accessToken") = some (.literal c.accessToken true)
  createdAt : Reads value "createdAt" platform.parseInstant c.createdAt
  tokenIssuedAt : version = schemaVersion →
    Reads value "tokenIssuedAt" platform.parseInstant c.tokenIssuedAt
  legacy : version = legacySchemaVersion → c.tokenIssuedAt = c.createdAt
  hubIdentity : ∃ identity, value.get (lit "hubIdentity") = some (.object identity) ∧
    IsPin platform identity c.hubIdentity

end Records

section ReadRecord

variable {platform : Platform} {allowInsecureLoopback : Bool} {o value identity : JsonObject}
  {name : String} {s : Str} {c : StoredHubCredential} {pin : HubIdentityPin}

theorem none_bind_eq_some {α : Type} {p : Prop} [Decidable p] {rest : Option α} {a : α} :
    ((do if p then none
         rest) = some a) ↔ ¬ p ∧ rest = some a := by
  by_cases hp : p
  · simp [hp]
  · simp [hp]

theorem requiredString_eq_some :
    requiredString o name = some s ↔ o.get (lit name) = some (.literal s true) := by
  rw [requiredString]
  split
  case h_1 content heq =>
    rw [heq]
    simp
  case h_2 hother =>
    refine iff_of_false (by simp) fun h => ?_
    exact hother s h

theorem requiredString_bind {α : Type} {f : Str → Option α} {a : α} :
    (requiredString o name >>= f) = some a ↔ Reads o name f a := by
  rw [Option.bind_eq_bind, Option.bind_eq_some_iff]
  exact exists_congr fun s => and_congr_left fun _ => requiredString_eq_some

theorem requiredBoolean_eq_false :
    requiredBoolean o name = some false ↔ o.get (lit name) = some (.literal (lit "false") false) := by
  have hne : lit "false" ≠ lit "true" := by decide
  rw [requiredBoolean]
  split
  case h_1 content heq =>
    rw [heq]
    by_cases htrue : content = lit "true"
    · rw [if_pos htrue, htrue]
      simp [hne.symm]
    · rw [if_neg htrue]
      by_cases hfalse : content = lit "false"
      · rw [if_pos hfalse, hfalse]
        simp
      · rw [if_neg hfalse]
        simp [hfalse]
  case h_2 hother =>
    refine iff_of_false (by simp) fun h => ?_
    exact hother _ h

theorem requiredObject_eq_some :
    requiredObject o name = some value ↔ o.get (lit name) = some (.object value) := by
  rw [requiredObject]
  split
  case h_1 members heq =>
    rw [heq]
    simp
  case h_2 hother =>
    refine iff_of_false (by simp) fun h => ?_
    exact hother value h

theorem requiredInt_eq_some {n : ℤ} : requiredInt platform o name = some n ↔
    ∃ s, o.get (lit name) = some (.literal s false) ∧ toIntOrNull platform s = some n := by
  rw [requiredInt]
  split
  case h_1 content heq =>
    rw [heq]
    constructor
    · exact fun h => ⟨content, rfl, h⟩
    · rintro ⟨s, hs, h⟩
      simp only [Option.some.injEq, JsonElement.literal.injEq, and_true] at hs
      rwa [hs]
  case h_2 hother =>
    refine iff_of_false (by simp) ?_
    rintro ⟨s, hs, -⟩
    exact hother s hs

theorem createPin_eq_some {hubId : UUID} {fingerprint : Str} {createdAt : Instant} :
    createPin hubId fingerprint createdAt = some pin ↔
      hubId = pin.hubId ∧ fingerprint = pin.fingerprint ∧ createdAt = pin.createdAt ∧
        matchesFingerprint pin.fingerprint = true := by
  rw [createPin]
  constructor
  · intro h
    split at h
    case isTrue hmatches =>
      obtain rfl := Option.some.inj h
      exact ⟨rfl, rfl, rfl, hmatches⟩
    case isFalse => cases h
  · rintro ⟨rfl, rfl, rfl, hmatches⟩
    rw [if_pos hmatches]

theorem readPin_iff : readPin platform identity = some pin ↔ IsPin platform identity pin := by
  rw [readPin, none_bind_eq_some, Bool.not_eq_false]
  constructor
  · rintro ⟨hkeys, h⟩
    obtain ⟨version, hversion, h⟩ := requiredString_bind.1 h
    obtain ⟨hv, h⟩ := none_bind_eq_some.1 h
    obtain ⟨verifiedBy, hverified, h⟩ := requiredString_bind.1 h
    obtain ⟨hb, h⟩ := none_bind_eq_some.1 h
    obtain ⟨trusted, htrusted, h⟩ := Option.bind_eq_some_iff.1 h
    obtain ⟨ht, h⟩ := none_bind_eq_some.1 h
    obtain ⟨hubIdText, hhubIdText, h⟩ := requiredString_bind.1 h
    obtain ⟨hubId, hhubId, h⟩ := Option.bind_eq_some_iff.1 h
    obtain ⟨fingerprint, hfingerprint, h⟩ := requiredString_bind.1 h
    obtain ⟨createdText, hcreatedText, h⟩ := requiredString_bind.1 h
    obtain ⟨createdAt, hcreatedAt, h⟩ := Option.bind_eq_some_iff.1 h
    obtain ⟨rfl, rfl, rfl, hmatches⟩ := createPin_eq_some.1 h
    rw [not_not] at hv hb
    rw [Bool.not_eq_true] at ht
    subst hv hb ht
    exact ⟨hkeys, hversion, hverified, requiredBoolean_eq_false.1 htrusted,
      ⟨hubIdText, hhubIdText, hhubId⟩, hfingerprint, hmatches, ⟨createdText, hcreatedText, hcreatedAt⟩⟩
  · intro h
    obtain ⟨hubIdText, hhubIdText, hhubId⟩ := h.hubId
    obtain ⟨createdText, hcreatedText, hcreatedAt⟩ := h.createdAt
    refine ⟨h.keys, requiredString_bind.2 ⟨_, h.schemaVersion, none_bind_eq_some.2 ⟨by simp, ?_⟩⟩⟩
    refine requiredString_bind.2 ⟨_, h.verifiedBy, none_bind_eq_some.2 ⟨by simp, ?_⟩⟩
    refine Option.bind_eq_some_iff.2 ⟨false, requiredBoolean_eq_false.2 h.trustedLanSupported,
      none_bind_eq_some.2 ⟨by simp, ?_⟩⟩
    refine requiredString_bind.2 ⟨_, hhubIdText, Option.bind_eq_some_iff.2 ⟨_, hhubId, ?_⟩⟩
    refine requiredString_bind.2 ⟨_, h.fingerprint, requiredString_bind.2 ⟨_, hcreatedText, ?_⟩⟩
    exact Option.bind_eq_some_iff.2 ⟨_, hcreatedAt,
      createPin_eq_some.2 ⟨rfl, rfl, rfl, h.fingerprint_matches⟩⟩

theorem createCredential_eq_some {endpoint deviceId accessToken : Str} {credentialId : UUID}
    {createdAt tokenIssuedAt : Instant} {hubIdentity : HubIdentityPin} :
    createCredential platform allowInsecureLoopback endpoint credentialId deviceId accessToken createdAt
        tokenIssuedAt hubIdentity = some c ↔
      (∃ e, HubEndpoint.create platform.parseUri c.endpoint allowInsecureLoopback = .ok e) ∧
        endpoint = c.endpoint ∧ credentialId = c.credentialId ∧ deviceId = c.deviceId ∧
        accessToken = c.accessToken ∧ createdAt = c.createdAt ∧ tokenIssuedAt = c.tokenIssuedAt ∧
        hubIdentity = c.hubIdentity := by
  rw [createCredential]
  constructor
  · intro h
    split at h
    · cases h
    case h_2 e haccepted =>
      rw [StoredHubCredential.create] at h
      split at h
      case isTrue =>
        obtain rfl := Option.some.inj h
        exact ⟨⟨e, haccepted⟩, rfl, rfl, rfl, rfl, rfl, rfl, rfl⟩
      case isFalse => cases h
  · rintro ⟨⟨e, haccepted⟩, rfl, rfl, rfl, rfl, rfl, rfl, rfl⟩
    rw [haccepted]
    exact dif_pos ⟨c.deviceId_matches, c.token_length, c.issued_after⟩

/-- **Records.** What is read as a credential are the records of the two versions. -/
theorem readRecord_iff : readRecord platform allowInsecureLoopback value = some c ↔
    ∃ version, IsRecord platform allowInsecureLoopback version value c := by
  constructor
  · intro h
    obtain ⟨version, hversion, h⟩ := Option.bind_eq_some_iff.1 h
    obtain ⟨keys, hkeysFor, h⟩ := Option.bind_eq_some_iff.1 h
    obtain ⟨hkeys, h⟩ := none_bind_eq_some.1 h
    obtain ⟨endpoint, hendpoint, h⟩ := requiredString_bind.1 h
    obtain ⟨credentialText, hcredentialText, h⟩ := requiredString_bind.1 h
    obtain ⟨deviceId, hdeviceId, h⟩ := requiredString_bind.1 h
    obtain ⟨accessToken, haccessToken, h⟩ := requiredString_bind.1 h
    obtain ⟨createdText, hcreatedText, h⟩ := requiredString_bind.1 h
    obtain ⟨issuedText, hissuedText, h⟩ := requiredString_bind.1 h
    obtain ⟨identity, hidentity, h⟩ := Option.bind_eq_some_iff.1 h
    obtain ⟨pin, hpin, h⟩ := Option.bind_eq_some_iff.1 h
    obtain ⟨credentialId, hcredentialId, h⟩ := Option.bind_eq_some_iff.1 h
    obtain ⟨createdAt, hcreatedAt, h⟩ := Option.bind_eq_some_iff.1 h
    obtain ⟨issuedAt, hissuedAt, h⟩ := Option.bind_eq_some_iff.1 h
    obtain ⟨haccepted, rfl, rfl, rfl, rfl, rfl, rfl, rfl⟩ := createCredential_eq_some.1 h
    refine ⟨version, {
      has_version := requiredInt_eq_some.1 hversion
      keys := ⟨keys, hkeysFor, Bool.not_eq_false _ ▸ hkeys⟩
      endpoint := hendpoint
      endpoint_accepted := haccepted
      credentialId := ⟨_, hcredentialText, hcredentialId⟩
      deviceId := hdeviceId
      accessToken := haccessToken
      createdAt := ⟨_, hcreatedText, hcreatedAt⟩
      tokenIssuedAt := ?_
      legacy := ?_
      hubIdentity := ⟨identity, requiredObject_eq_some.1 hidentity, readPin_iff.1 hpin⟩ }⟩
    · intro hthree
      rw [if_pos hthree] at hissuedText
      exact ⟨issuedText, hissuedText, hissuedAt⟩
    · intro htwo
      rw [if_neg (by rw [htwo]; decide)] at hissuedText
      -- the issue time is read from the text of the creation time
      have hsame : issuedText = createdText := by
        rw [hcreatedText] at hissuedText
        simpa using hissuedText.symm
      rw [hsame, hcreatedAt] at hissuedAt
      exact (Option.some.inj hissuedAt).symm
  · rintro ⟨version, h⟩
    obtain ⟨keys, hkeysFor, hkeys⟩ := h.keys
    obtain ⟨credentialText, hcredentialText, hcredentialId⟩ := h.credentialId
    obtain ⟨createdText, hcreatedText, hcreatedAt⟩ := h.createdAt
    obtain ⟨identity, hidentity, hpin⟩ := h.hubIdentity
    have hissued : ∃ issuedText,
        value.get (lit (if version = schemaVersion then "tokenIssuedAt" else "createdAt")) =
          some (.literal issuedText true) ∧ platform.parseInstant issuedText = some c.tokenIssuedAt := by
      by_cases hthree : version = schemaVersion
      · obtain ⟨issuedText, hissuedText, hissuedAt⟩ := h.tokenIssuedAt hthree
        exact ⟨issuedText, by rw [if_pos hthree]; exact hissuedText, hissuedAt⟩
      · have htwo : version = legacySchemaVersion := by
          by_contra hne
          rw [recordKeysFor, if_neg hne, if_neg hthree] at hkeysFor
          cases hkeysFor
        exact ⟨createdText, by rw [if_neg hthree]; exact hcreatedText,
          by rw [hcreatedAt, h.legacy htwo]⟩
    obtain ⟨issuedText, hissuedText, hissuedAt⟩ := hissued
    refine Option.bind_eq_some_iff.2 ⟨version, requiredInt_eq_some.2 h.has_version, ?_⟩
    refine Option.bind_eq_some_iff.2 ⟨keys, hkeysFor, none_bind_eq_some.2 ⟨by simp [hkeys], ?_⟩⟩
    refine requiredString_bind.2 ⟨_, h.endpoint, requiredString_bind.2 ⟨_, hcredentialText, ?_⟩⟩
    refine requiredString_bind.2 ⟨_, h.deviceId, requiredString_bind.2 ⟨_, h.accessToken, ?_⟩⟩
    refine requiredString_bind.2 ⟨_, hcreatedText, requiredString_bind.2 ⟨_, hissuedText, ?_⟩⟩
    refine Option.bind_eq_some_iff.2 ⟨_, requiredObject_eq_some.2 hidentity, ?_⟩
    refine Option.bind_eq_some_iff.2 ⟨_, readPin_iff.2 hpin, ?_⟩
    refine Option.bind_eq_some_iff.2 ⟨_, hcredentialId, Option.bind_eq_some_iff.2 ⟨_, hcreatedAt, ?_⟩⟩
    exact Option.bind_eq_some_iff.2 ⟨_, hissuedAt,
      createCredential_eq_some.2 ⟨h.endpoint_accepted, rfl, rfl, rfl, rfl, rfl, rfl, rfl⟩⟩

end ReadRecord

/-! ### The cipher -/

section CipherLemmas

variable {Key : Type} {gcm : Gcm Key} {key : Key} {iv plaintext content : Bytes}

theorem length_sealed (hgcm : gcm.Lawful) (hiv : iv.length = gcmIvBytes) :
    (sealed gcm key iv plaintext).length = plaintext.length + 33 := by
  rw [sealed, List.length_append, List.length_cons, List.length_append, hgcm.length_encrypt, hiv, magic,
    gcmIvBytes]
  simp only [List.length_cons, List.length_nil]
  omega

/-- What stands in a sealed text. -/
theorem sealed_parts (hiv : iv.length = gcmIvBytes) :
    (sealed gcm key iv plaintext).take magic.length = magic ∧
      ((sealed gcm key iv plaintext).drop magic.length).head? = some (UInt8.ofNat gcmIvBytes) ∧
      ((sealed gcm key iv plaintext).drop (magic.length + 1)).take gcmIvBytes = iv ∧
      (sealed gcm key iv plaintext).drop (magic.length + 1 + gcmIvBytes) =
        gcm.encrypt key iv plaintext := by
  have hdrop : (sealed gcm key iv plaintext).drop magic.length =
      UInt8.ofNat iv.length :: (iv ++ gcm.encrypt key iv plaintext) := List.drop_left
  have hbody : (sealed gcm key iv plaintext).drop (magic.length + 1) =
      iv ++ gcm.encrypt key iv plaintext := by
    rw [← List.drop_drop, hdrop]
    rfl
  refine ⟨List.take_left, ?_, ?_, ?_⟩
  · rw [hdrop, hiv]
    rfl
  · rw [hbody, ← hiv, List.take_left]
  · rw [← List.drop_drop, hbody, ← hiv, List.drop_left]

theorem openSealed_sealed (hgcm : gcm.Lawful) (hiv : iv.length = gcmIvBytes) (hne : plaintext ≠ []) :
    openSealed gcm (some key) (sealed gcm key iv plaintext) = some plaintext := by
  obtain ⟨hmagic, hlength, hvector, hpayload⟩ := @sealed_parts Key gcm key iv plaintext hiv
  have hlong : 0 < plaintext.length := List.length_pos_iff.2 hne
  have hsize := @length_sealed Key gcm key iv plaintext hgcm hiv
  refine none_bind_eq_some.2 ⟨?_, none_bind_eq_some.2 ⟨by simp [hmagic], none_bind_eq_some.2
    ⟨by simp [hlength], ?_⟩⟩⟩
  · rw [hsize, magic, gcmIvBytes, gcmTagBytes]
    simp only [List.length_cons, List.length_nil]
    omega
  · rw [hvector, hpayload]
    exact hgcm.decrypt_encrypt key iv plaintext

/-- What is opened has been sealed. -/
theorem sealed_of_openSealed (hgcm : gcm.Lawful) {key? : Option Key}
    (h : openSealed gcm key? content = some plaintext) :
    ∃ key iv, key? = some key ∧ iv.length = gcmIvBytes ∧ plaintext ≠ [] ∧
      content = sealed gcm key iv plaintext := by
  obtain ⟨hlong, h⟩ := none_bind_eq_some.1 h
  obtain ⟨hmagic, h⟩ := none_bind_eq_some.1 h
  obtain ⟨hlength, h⟩ := none_bind_eq_some.1 h
  obtain ⟨key, hkey, h⟩ := Option.bind_eq_some_iff.1 h
  rw [not_not] at hmagic hlength
  rw [not_le, magic, gcmIvBytes, gcmTagBytes] at hlong
  simp only [List.length_cons, List.length_nil] at hlong
  have hiv : ((content.drop (magic.length + 1)).take gcmIvBytes).length = gcmIvBytes := by
    rw [List.length_take, List.length_drop, magic, gcmIvBytes]
    simp only [List.length_cons, List.length_nil]
    omega
  have hpayload := hgcm.encrypt_of_decrypt _ _ _ _ h
  refine ⟨key, _, hkey, hiv, ?_, ?_⟩
  · rintro rfl
    have hempty := congrArg List.length hpayload
    rw [hgcm.length_encrypt, List.length_drop, magic, gcmIvBytes] at hempty
    simp only [List.length_cons, List.length_nil] at hempty
    omega
  · have hbody : (content.drop (magic.length + 1)).take gcmIvBytes ++
        content.drop (magic.length + 1 + gcmIvBytes) = content.drop (magic.length + 1) := by
      rw [show content.drop (magic.length + 1 + gcmIvBytes) =
        (content.drop (magic.length + 1)).drop gcmIvBytes from List.drop_drop.symm,
        List.take_append_drop]
    rw [sealed, ← hpayload, hiv, hbody]
    obtain ⟨rest, hrest⟩ := List.head?_eq_some_iff.1 hlength
    calc content = content.take magic.length ++ content.drop magic.length :=
        (List.take_append_drop _ _).symm
      _ = magic ++ (UInt8.ofNat gcmIvBytes :: rest) := by rw [hmagic, hrest]
      _ = magic ++ (UInt8.ofNat gcmIvBytes :: content.drop (magic.length + 1)) := by
        rw [← List.drop_drop, hrest]
        rfl

end CipherLemmas

/-! ### Loading -/

section Load

variable {Key : Type} (gcm : Gcm Key) (platform : Platform) (allowInsecureLoopback : Bool)

/-- The content is a sealed record of this version. -/
def StoresRecord (key : Option Key) (content : Bytes) (version : ℤ) (c : StoredHubCredential) : Prop :=
  ∃ k iv plaintext value, key = some k ∧ iv.length = gcmIvBytes ∧ plaintext ≠ [] ∧
    plaintext.length ≤ maxPlaintextBytes ∧ content = sealed gcm k iv plaintext ∧
    platform.parseToJsonElement (platform.decodeUtf8 plaintext) = some (.object value) ∧
    IsRecord platform allowInsecureLoopback version value c

variable {gcm platform allowInsecureLoopback} {s : Storage Key} {content : Bytes} {key : Option Key}
  {version : ℤ} {c : StoredHubCredential}

theorem readCredential_iff (hgcm : gcm.Lawful) :
    readCredential gcm platform allowInsecureLoopback key content = some c ↔
      ∃ version, StoresRecord gcm platform allowInsecureLoopback key content version c := by
  constructor
  · intro h
    obtain ⟨-, h⟩ := none_bind_eq_some.1 h
    obtain ⟨plaintext, hopen, h⟩ := Option.bind_eq_some_iff.1 h
    obtain ⟨hshort, h⟩ := none_bind_eq_some.1 h
    obtain ⟨element, hparse, hread⟩ := Option.bind_eq_some_iff.1 h
    obtain ⟨k, iv, rfl, hiv, hne, rfl⟩ := sealed_of_openSealed hgcm hopen
    split at hread
    case h_1 value =>
      obtain ⟨version, hrecord⟩ := readRecord_iff.1 hread
      exact ⟨version, k, iv, plaintext, value, rfl, hiv, hne, not_lt.1 hshort, rfl, hparse, hrecord⟩
    case h_2 => cases hread
  · rintro ⟨version, k, iv, plaintext, value, rfl, hiv, hne, hshort, rfl, hparse, hrecord⟩
    have hsize := @length_sealed Key gcm k iv plaintext hgcm hiv
    refine none_bind_eq_some.2 ⟨?_, Option.bind_eq_some_iff.2 ⟨plaintext,
      openSealed_sealed hgcm hiv hne, none_bind_eq_some.2 ⟨not_lt.2 hshort,
      Option.bind_eq_some_iff.2 ⟨_, hparse, readRecord_iff.2 ⟨version, hrecord⟩⟩⟩⟩⟩
    rw [maxPlaintextBytes] at hshort
    rw [hsize, maxSealedBytes]
    omega

theorem load_of_stored (hgcm : gcm.Lawful) (hfile : s.file = some content)
    (h : StoresRecord gcm platform allowInsecureLoopback s.key content version c) :
    load gcm platform allowInsecureLoopback s = (.loaded c, s) := by
  rw [load, hfile]
  dsimp only
  rw [(readCredential_iff hgcm).2 ⟨version, h⟩]

/-- Any other content is deleted. -/
theorem load_of_other (hgcm : gcm.Lawful) (hfile : s.file = some content)
    (h : ∀ version c, ¬ StoresRecord gcm platform allowInsecureLoopback s.key content version c) :
    load gcm platform allowInsecureLoopback s = (.corrupt, ⟨none, none⟩) := by
  have hnone : readCredential gcm platform allowInsecureLoopback s.key content = none := by
    cases hread : readCredential gcm platform allowInsecureLoopback s.key content with
    | none => rfl
    | some c =>
      obtain ⟨version, hstored⟩ := (readCredential_iff hgcm).1 hread
      exact absurd hstored (h version c)
  rw [load, hfile]
  dsimp only
  rw [hnone]

end Load

/-! ### Saving -/

section Texts

variable {s : Str} {members : JsonObject}

theorem length_commaJoin_le (parts : List Str) :
    (commaJoin parts).length ≤ (parts.map fun part => part.length + 1).sum := by
  induction parts with
  | nil => exact Nat.le_refl _
  | cons part parts ih =>
    cases parts with
    | nil => simp [commaJoin, List.intercalate]
    | cons part' parts =>
      have hcons : commaJoin (part :: part' :: parts) =
          part ++ ([0x2c] ++ commaJoin (part' :: parts)) := by
        simp [commaJoin, List.intercalate]
      rw [hcons, List.length_append, List.length_append, List.length_singleton, List.map_cons,
        List.sum_cons]
      omega

theorem textMembers_eq (members : JsonObject) :
    textMembers members = members.map fun m => printQuoted m.1 ++ 0x3a :: m.2.text := by
  induction members with
  | nil => rfl
  | cons m members ih => rw [textMembers, ih, List.map_cons]

theorem text_object (members : JsonObject) : (JsonElement.object members).text =
    0x7b :: (commaJoin (members.map fun m => printQuoted m.1 ++ 0x3a :: m.2.text) ++ [0x7d]) := by
  rw [JsonElement.text, textMembers_eq]

theorem length_text_object_le (hkeys : ∀ m ∈ members, Plain m.1) :
    (JsonElement.object members).text.length ≤
      2 + (members.map fun m => m.1.length + m.2.text.length + 4).sum := by
  have hparts := length_commaJoin_le (members.map fun m => printQuoted m.1 ++ 0x3a :: m.2.text)
  have hsum : ((members.map fun m => printQuoted m.1 ++ 0x3a :: m.2.text).map
      fun part => part.length + 1) = members.map fun m => m.1.length + m.2.text.length + 4 := by
    rw [List.map_map]
    refine List.map_congr_left fun m hm => ?_
    rw [Function.comp_apply, List.length_append, length_printQuoted (hkeys m hm), List.length_cons]
    omega
  rw [hsum] at hparts
  rw [text_object, List.length_cons, List.length_append, List.length_singleton]
  omega

theorem ascii_text_object (h : ∀ m ∈ members, Plain m.1 ∧ Ascii m.2.text) :
    Ascii (JsonElement.object members).text := by
  rw [text_object]
  refine List.forall_mem_cons.2 ⟨by decide, Ascii.append (ascii_commaJoin ?_) (by decide)⟩
  intro part hpart
  obtain ⟨m, hm, rfl⟩ := List.mem_map.1 hpart
  exact (ascii_printQuoted (h m hm).1).append
    (List.forall_mem_cons.2 ⟨by decide, (h m hm).2⟩)

theorem length_text_string (h : Plain s) : (JsonElement.literal s true).text.length = s.length + 2 :=
  length_printQuoted h

theorem ascii_text_string (h : Plain s) : Ascii (JsonElement.literal s true).text := ascii_printQuoted h

theorem get_of_mem (hkeys : (members.map (·.1)).Nodup) {key : Str} {e : JsonElement}
    (h : (key, e) ∈ members) : members.get key = some e := by
  obtain ⟨pre, post, rfl⟩ := List.append_of_mem h
  refine List.lookup_eq_some_iff.2 ⟨pre, post, rfl, fun p hp => ?_⟩
  rw [List.map_append, List.nodup_append] at hkeys
  have hne := hkeys.2.2 p.1 (List.mem_map_of_mem hp) key (by simp)
  simpa using hne.symm

theorem hasExactKeys_of_keys {names expected : List Str} (hnames : members.map (·.1) = names)
    (h : (names.all expected.contains && expected.all names.contains) = true) :
    hasExactKeys members expected = true := by
  rw [hasExactKeys, hnames]
  rw [← hnames, List.all_map] at h
  rw [← hnames]
  exact h

theorem plain_uuidToString (u : UUID) : Plain (uuidToString u) := by
  have hchars : ∀ c ∈ Python.uuidStr u, c.toNat < 0x80 ∧ IsPlainUnit c.toNat.toUInt16 := by
    intro c hc
    rcases Python.mem_uuidStr hc with hhex | rfl
    · obtain ⟨d, hd, rfl⟩ := Positional.mem_write (by decide) hhex
      have hall : ∀ d < 16, (Positional.digitChar d).toNat < 0x80 ∧
          IsPlainUnit (Positional.digitChar d).toNat.toUInt16 := by decide
      exact hall d hd
    · decide
  intro w hw
  obtain ⟨c, hc, hcw⟩ := mem_ofChars.1 hw
  obtain ⟨hlow, hplain⟩ := hchars c hc
  rw [units_of_lt (by omega), List.mem_singleton] at hcw
  rwa [hcw]

theorem length_uuidToString (u : UUID) : (uuidToString u).length = 36 := by
  have hchars : ∀ c ∈ Python.uuidStr u, c.toNat < 0x10000 := by
    intro c hc
    rcases Python.mem_uuidStr hc with hhex | rfl
    · obtain ⟨d, hd, rfl⟩ := Positional.mem_write (by decide) hhex
      have hall : ∀ d < 16, (Positional.digitChar d).toNat < 0x10000 := by decide
      exact hall d hd
    · decide
  rw [uuidToString, length_ofChars hchars]
  simp [Python.uuidStr, Python.length_uuidHex]

theorem plain_deviceId (h : StoredHubCredential.matchesDeviceId s = true) : Plain s := by
  rw [StoredHubCredential.matchesDeviceId, Bool.and_eq_true, List.all_eq_true] at h
  intro u hu
  have hu := h.2 u hu
  simp only [StoredHubCredential.isDeviceIdChar, Bool.or_eq_true, Bool.and_eq_true, decide_eq_true_eq,
    UInt16.le_iff_toNat_le, ← UInt16.toNat_inj] at hu
  simp only [IsPlainUnit, UInt16.le_iff_toNat_le, UInt16.lt_iff_toNat_lt, ne_eq, ← UInt16.toNat_inj]
  simp at hu ⊢
  omega

theorem plain_fingerprint (h : matchesFingerprint s = true) : Plain s ∧ s.length = 71 := by
  rw [matchesFingerprint, Bool.and_eq_true, Bool.and_eq_true, decide_eq_true_eq, decide_eq_true_eq,
    List.all_eq_true] at h
  obtain ⟨⟨hhead, hlength⟩, hdigits⟩ := h
  refine ⟨?_, hlength⟩
  have hpre : Plain (lit "sha256:") := by decide
  rw [← List.take_append_drop 7 s]
  intro u hu
  rcases List.mem_append.1 hu with hu | hu
  · rw [hhead] at hu
    exact hpre u hu
  · have hu := hdigits u hu
    simp only [Bool.or_eq_true, Bool.and_eq_true, decide_eq_true_eq, UInt16.le_iff_toNat_le] at hu
    simp only [IsPlainUnit, UInt16.le_iff_toNat_le, UInt16.lt_iff_toNat_lt, ne_eq, ← UInt16.toNat_inj]
    simp at hu ⊢
    omega

end Texts

/-! ### A credential that is saved -/

/-- What is documented of the platform: hosts of URLs are plain, a UUID is read from its text, and a text
from its bytes. -/
structure Platform.Lawful (platform : Platform) : Prop where
  uri : HubEndpoint.UriIsPlain platform.parseUri
  uuid : ∀ u, platform.uuidFromString (uuidToString u) = some u
  utf8 : ∀ s, platform.decodeUtf8 (Python.utf8 s) = ofChars s

/-- An instant is read from its text, which is plain and has no more characters than the latest one's,
`+1000000000-12-31T23:59:59.999999999Z`. -/
structure ReadsInstant (platform : Platform) (i : Instant) : Prop where
  parse : platform.parseInstant (platform.instantText i) = some i
  plain : Plain (platform.instantText i)
  length : (platform.instantText i).length ≤ 37

/-- The instants and the JSON text of the credential can be read again. -/
structure ReadsBack (platform : Platform) (c : StoredHubCredential) : Prop where
  createdAt : ReadsInstant platform c.createdAt
  tokenIssuedAt : ReadsInstant platform c.tokenIssuedAt
  pinCreatedAt : ReadsInstant platform c.hubIdentity.createdAt
  json : platform.parseToJsonElement (JsonElement.object (recordMembers platform c)).text =
    some (.object (recordMembers platform c))

/-- `StoredHubCredential.create` and `HubIdentityPin.create` admit the credential. -/
structure Admitted (platform : Platform) (allowInsecureLoopback : Bool) (c : StoredHubCredential) : Prop where
  credential : createCredential platform allowInsecureLoopback c.endpoint c.credentialId c.deviceId
    c.accessToken c.createdAt c.tokenIssuedAt c.hubIdentity = some c
  pin : createPin c.hubIdentity.hubId c.hubIdentity.fingerprint c.hubIdentity.createdAt =
    some c.hubIdentity

section Save

variable {Key : Type} {gcm : Gcm Key} {platform : Platform} {allowInsecureLoopback : Bool}
  {s : Storage Key} {c : StoredHubCredential}

theorem Admitted.endpoint (h : Admitted platform allowInsecureLoopback c) :
    ∃ e, HubEndpoint.create platform.parseUri c.endpoint allowInsecureLoopback = .ok e :=
  (createCredential_eq_some.1 h.credential).1

theorem Admitted.fingerprint (h : Admitted platform allowInsecureLoopback c) :
    matchesFingerprint c.hubIdentity.fingerprint = true :=
  (createPin_eq_some.1 h.pin).2.2.2

/-- What is written is a record. -/
theorem isRecord_recordMembers (hplatform : platform.Lawful) (hback : ReadsBack platform c)
    (h : Admitted platform allowInsecureLoopback c) :
    IsRecord platform allowInsecureLoopback schemaVersion (recordMembers platform c) c := by
  have hnodup : (recordKeysV2.take 6 ++ [lit "tokenIssuedAt", lit "hubIdentity"]).Nodup := by
    decide +kernel
  have hkeys : (recordMembers platform c).map (·.1) =
      recordKeysV2.take 6 ++ [lit "tokenIssuedAt", lit "hubIdentity"] := rfl
  have hget : ∀ {key : Str} {e : JsonElement}, (key, e) ∈ recordMembers platform c →
      (recordMembers platform c).get key = some e := fun h => get_of_mem (hkeys ▸ hnodup) h
  have hpinKeys : (pinMembers platform c.hubIdentity).map (·.1) = hubIdentityKeys := rfl
  have hpinNodup : hubIdentityKeys.Nodup := by decide +kernel
  have hpinGet : ∀ {key : Str} {e : JsonElement}, (key, e) ∈ pinMembers platform c.hubIdentity →
      (pinMembers platform c.hubIdentity).get key = some e :=
    fun h => get_of_mem (hpinKeys ▸ hpinNodup) h
  have hthree : toIntOrNull platform (lit "3") = some schemaVersion := by
    have hdigit : digitOf platform 0x33 = some 3 := rfl
    have hlit : lit "3" = [0x33] := by decide
    rw [hlit, toIntOrNull, if_neg (by decide), digitsValue, List.foldlM_cons, hdigit]
    rfl
  refine {
    has_version := ⟨_, hget (.head _), hthree⟩
    keys := ⟨recordKeysV3, rfl, hasExactKeys_of_keys hkeys (by decide +kernel)⟩
    endpoint := hget (.tail _ (.head _))
    endpoint_accepted := h.endpoint
    credentialId := ⟨_, hget (.tail _ (.tail _ (.head _))), hplatform.uuid _⟩
    deviceId := hget (.tail _ (.tail _ (.tail _ (.head _))))
    accessToken := hget (.tail _ (.tail _ (.tail _ (.tail _ (.head _)))))
    createdAt := ⟨_, hget (.tail _ (.tail _ (.tail _ (.tail _ (.tail _ (.head _)))))),
      hback.createdAt.parse⟩
    tokenIssuedAt := fun _ => ⟨_, hget (.tail _ (.tail _ (.tail _ (.tail _ (.tail _ (.tail _ (.head _))))))),
      hback.tokenIssuedAt.parse⟩
    legacy := fun h => absurd h (by decide)
    hubIdentity := ⟨_, hget (.tail _ (.tail _ (.tail _ (.tail _ (.tail _ (.tail _ (.tail _ (.head _)))))))), {
      keys := hasExactKeys_of_keys hpinKeys (by decide +kernel)
      schemaVersion := hpinGet (.head _)
      verifiedBy := hpinGet (.tail _ (.tail _ (.tail _ (.tail _ (.head _)))))
      trustedLanSupported := hpinGet (.tail _ (.tail _ (.tail _ (.tail _ (.tail _ (.head _))))))
      hubId := ⟨_, hpinGet (.tail _ (.head _)), hplatform.uuid _⟩
      fingerprint := hpinGet (.tail _ (.tail _ (.head _)))
      fingerprint_matches := h.fingerprint
      createdAt := ⟨_, hpinGet (.tail _ (.tail _ (.tail _ (.head _)))), hback.pinCreatedAt.parse⟩ }⟩ }

/-- The text of a record is ASCII and fits the limit, when the token is plain. -/
theorem recordText (hplatform : platform.Lawful) (hback : ReadsBack platform c)
    (h : Admitted platform allowInsecureLoopback c) (htoken : Plain c.accessToken) :
    Ascii (JsonElement.object (recordMembers platform c)).text ∧
      (JsonElement.object (recordMembers platform c)).text.length ≤ maxPlaintextBytes := by
  obtain ⟨e, haccepted⟩ := h.endpoint
  have hendpoint := HubEndpoint.create_plain hplatform.uri haccepted
  have hendpointLength := HubEndpoint.create_length haccepted
  have hdevice := plain_deviceId c.deviceId_matches
  have hdeviceLength : c.deviceId.length ≤ 64 := by
    have hmatches := c.deviceId_matches
    rw [StoredHubCredential.matchesDeviceId, Bool.and_eq_true, decide_eq_true_eq] at hmatches
    exact hmatches.1.2
  have htokenLength := c.token_length.2
  obtain ⟨hfingerprint, hfingerprintLength⟩ := plain_fingerprint h.fingerprint
  have hversion : Plain pinSchemaVersion := by decide +kernel
  have hverified : Plain pinVerifiedBy := by decide +kernel
  have hpinKeys : ∀ key ∈ hubIdentityKeys, Plain key := by decide +kernel
  have hrecordKeys : ∀ key ∈ recordKeysV2.take 6 ++ [lit "tokenIssuedAt", lit "hubIdentity"], Plain key := by
    decide +kernel
  have hpinMembers : ∀ m ∈ pinMembers platform c.hubIdentity, Plain m.1 ∧ Ascii m.2.text := by
    intro m hm
    refine ⟨hpinKeys m.1 (List.mem_map_of_mem (f := Prod.fst) hm), ?_⟩
    simp only [pinMembers, List.mem_cons, List.not_mem_nil, or_false] at hm
    rcases hm with rfl | rfl | rfl | rfl | rfl | rfl
    · exact ascii_text_string hversion
    · exact ascii_text_string (plain_uuidToString _)
    · exact ascii_text_string hfingerprint
    · exact ascii_text_string hback.pinCreatedAt.plain
    · exact ascii_text_string hverified
    · exact (by decide : Ascii (lit "false"))
  have hmembers : ∀ m ∈ recordMembers platform c, Plain m.1 ∧ Ascii m.2.text := by
    intro m hm
    refine ⟨hrecordKeys m.1 (List.mem_map_of_mem (f := Prod.fst) hm), ?_⟩
    simp only [recordMembers, List.mem_cons, List.not_mem_nil, or_false] at hm
    rcases hm with rfl | rfl | rfl | rfl | rfl | rfl | rfl | rfl
    · exact (by decide : Ascii (lit "3"))
    · exact ascii_text_string hendpoint
    · exact ascii_text_string (plain_uuidToString _)
    · exact ascii_text_string hdevice
    · exact ascii_text_string htoken
    · exact ascii_text_string hback.createdAt.plain
    · exact ascii_text_string hback.tokenIssuedAt.plain
    · exact ascii_text_object hpinMembers
  refine ⟨ascii_text_object hmembers, ?_⟩
  have hpinLength := length_text_object_le fun m hm => (hpinMembers m hm).1
  have hlength := length_text_object_le fun m hm => (hmembers m hm).1
  have hlits : (lit "schemaVersion").length = 13 ∧ (lit "endpoint").length = 8 ∧
      (lit "credentialId").length = 12 ∧ (lit "deviceId").length = 8 ∧ (lit "accessToken").length = 11 ∧
      (lit "createdAt").length = 9 ∧ (lit "tokenIssuedAt").length = 13 ∧
      (lit "hubIdentity").length = 11 ∧ (lit "hubId").length = 5 ∧ (lit "fingerprint").length = 11 ∧
      (lit "verifiedBy").length = 10 ∧ (lit "trustedLanSupported").length = 19 ∧
      (lit "false").length = 5 ∧ (lit "3").length = 1 ∧ pinSchemaVersion.length = 21 ∧
      pinVerifiedBy.length = 22 := by
    decide +kernel
  obtain ⟨h1, h2, h3, h4, h5, h6, h7, h8, h9, h10, h11, h12, h13, h14, h15, h16⟩ := hlits
  have hfalse : (JsonElement.literal (lit "false") false).text = lit "false" := rfl
  have hthree : (JsonElement.literal (lit "3") false).text = lit "3" := rfl
  have hcreated := hback.createdAt.length
  have hissued := hback.tokenIssuedAt.length
  have hpinCreated := hback.pinCreatedAt.length
  have hpin : (JsonElement.object (pinMembers platform c.hubIdentity)).text.length ≤ 300 := by
    refine hpinLength.trans ?_
    simp only [pinMembers, List.map_cons, List.map_nil, List.sum_cons, List.sum_nil, hfalse,
      length_text_string hversion, length_text_string (plain_uuidToString _),
      length_text_string hfingerprint, length_text_string hback.pinCreatedAt.plain,
      length_text_string hverified, length_uuidToString, hfingerprintLength, h1, h6, h9, h10, h11, h12,
      h13, h15, h16]
    omega
  rw [HubEndpoint.maxEndpointLength] at hendpointLength
  rw [StoredHubCredential.maxTokenLength] at htokenLength
  refine hlength.trans ?_
  rw [recordMembers, maxPlaintextBytes]
  simp only [List.map_cons, List.map_nil, List.sum_cons, List.sum_nil, hthree,
    length_text_string hendpoint, length_text_string (plain_uuidToString _), length_text_string hdevice,
    length_text_string htoken, length_text_string hback.createdAt.plain,
    length_text_string hback.tokenIssuedAt.plain, length_uuidToString, h1, h2, h3, h4, h5, h6, h7, h8,
    h14]
  omega

/-- **Saving.** What is saved is a record of version 3, and it is loaded again. -/
theorem save_stores (hgcm : gcm.Lawful) (hplatform : platform.Lawful) (hback : ReadsBack platform c)
    (h : Admitted platform allowInsecureLoopback c) (htoken : Plain c.accessToken)
    {answers : SaveAnswers Key} {key : Key} {iv : Bytes} (hkey : s.key.or answers.newKey = some key)
    (hiv : answers.iv = some iv) (hlength : iv.length = gcmIvBytes) (hwritten : answers.written = true) :
    ∃ content, save gcm platform allowInsecureLoopback answers c s = (.ok c, ⟨some content, some key⟩) ∧
      StoresRecord gcm platform allowInsecureLoopback (some key) content schemaVersion c := by
  obtain ⟨hascii, hfits⟩ := recordText hplatform hback h htoken
  have hbytes : (recordBytes platform c).length =
      (JsonElement.object (recordMembers platform c)).text.length := length_utf8_of_ascii hascii
  have hne : recordBytes platform c ≠ [] := by
    intro hempty
    rw [hempty, text_object] at hbytes
    simp at hbytes
  have hdecode : platform.decodeUtf8 (recordBytes platform c) =
      (JsonElement.object (recordMembers platform c)).text := by
    rw [recordBytes, hplatform.utf8]
    exact hascii.whole
  have hstored : StoresRecord gcm platform allowInsecureLoopback (some key)
      (sealed gcm key iv (recordBytes platform c)) schemaVersion c :=
    ⟨key, iv, _, _, rfl, hlength, hne, hbytes ▸ hfits, rfl, by rw [hdecode, hback.json],
      isRecord_recordMembers hplatform hback h⟩
  have hsize := @length_sealed Key gcm key iv (recordBytes platform c) hgcm hlength
  have hsame : sameAuthority c c = true := by simp [sameAuthority]
  have hseal : sealWith gcm answers s.key (recordBytes platform c) =
      (some key, some (sealed gcm key iv (recordBytes platform c))) := by
    rw [sealWith, hkey]
    dsimp only
    rw [hiv, Option.bind_some, if_pos hlength]
  have hload := load_of_stored (s := ⟨some (sealed gcm key iv (recordBytes platform c)), some key⟩)
    hgcm rfl hstored
  refine ⟨_, ?_, hstored⟩
  rw [save, if_neg (not_lt.2 (hbytes ▸ hfits)), hseal]
  dsimp only
  rw [if_neg, if_neg (by rw [hwritten]; decide), hload]
  · dsimp only
    rw [if_pos hsame]
  · rw [not_or, not_lt, hsize, hbytes, maxSealedBytes]
    rw [maxPlaintextBytes] at hfits
    refine ⟨fun hempty => ?_, by omega⟩
    rw [hempty] at hsize
    simp at hsize

end Save

/-! ### The store -/

/-- A record of version 2, by what is read of it. -/
structure IsLegacyRecord (platform : Platform) (allowInsecureLoopback : Bool) (value : JsonObject)
    (endpoint : Str) (credentialId : UUID) (deviceId accessToken : Str) (createdAt : Instant)
    (pin : HubIdentityPin) : Prop where
  admitted : (createCredential platform allowInsecureLoopback endpoint credentialId deviceId accessToken
    createdAt createdAt pin).isSome = true
  has_version : ∃ s, value.get (lit "schemaVersion") = some (.literal s false) ∧
    toIntOrNull platform s = some legacySchemaVersion
  keys : hasExactKeys value recordKeysV2 = true
  endpoint : value.get (lit "endpoint") = some (.literal endpoint true)
  credentialId : Reads value "credentialId" platform.uuidFromString credentialId
  deviceId : value.get (lit "deviceId") = some (.literal deviceId true)
  accessToken : value.get (lit "accessToken") = some (.literal accessToken true)
  createdAt : Reads value "createdAt" platform.parseInstant createdAt
  hubIdentity : ∃ identity, value.get (lit "hubIdentity") = some (.object identity) ∧
    IsPin platform identity pin

section Store

variable {Key : Type} {gcm : Gcm Key} {platform : Platform} {allowInsecureLoopback : Bool}

theorem IsLegacyRecord.isRecord {value : JsonObject} {endpoint deviceId accessToken : Str}
    {credentialId : UUID} {createdAt : Instant} {pin : HubIdentityPin}
    (h : IsLegacyRecord platform allowInsecureLoopback value endpoint credentialId deviceId accessToken
      createdAt pin) :
    ∃ c : StoredHubCredential, IsRecord platform allowInsecureLoopback legacySchemaVersion value c ∧
      c.createdAt = createdAt ∧ c.tokenIssuedAt = createdAt := by
  obtain ⟨c, hc⟩ := Option.isSome_iff_exists.1 h.admitted
  obtain ⟨haccepted, rfl, rfl, rfl, rfl, hcreated, hissued, rfl⟩ := createCredential_eq_some.1 hc
  refine ⟨c, {
    has_version := h.has_version
    keys := ⟨recordKeysV2, rfl, h.keys⟩
    endpoint := h.endpoint
    endpoint_accepted := haccepted
    credentialId := h.credentialId
    deviceId := h.deviceId
    accessToken := h.accessToken
    createdAt := hcreated ▸ h.createdAt
    tokenIssuedAt := fun h => absurd h (by decide)
    legacy := fun _ => hissued.symm.trans hcreated
    hubIdentity := h.hubIdentity }, hcreated.symm, hissued.symm⟩

/-- **The stored credential.** A credential that is admitted and has a plain token is saved and loaded
again, a record of version 2 is loaded with the time of its creation, and every content that is no record
of either version is found corrupt and deleted. -/
theorem stored_credential_loads (hgcm : gcm.Lawful) (hplatform : platform.Lawful) :
    (∀ (s : Storage Key) (c : StoredHubCredential) (answers : SaveAnswers Key) (key : Key) (iv : Bytes),
      Admitted platform allowInsecureLoopback c → Plain c.accessToken → ReadsBack platform c →
      s.key.or answers.newKey = some key → answers.iv = some iv → iv.length = gcmIvBytes →
      answers.written = true →
      ∃ persisted s', save gcm platform allowInsecureLoopback answers c s = (.ok persisted, s') ∧
        sameAuthority persisted c = true ∧
        ∃ loaded, load gcm platform allowInsecureLoopback s' = (.loaded loaded, s') ∧
          sameAuthority loaded c = true) ∧
    (∀ (s : Storage Key) (key : Key) (iv plaintext : Bytes) (value : JsonObject) (endpoint : Str)
      (credentialId : UUID) (deviceId accessToken : Str) (createdAt : Instant) (pin : HubIdentityPin),
      s = ⟨some (sealed gcm key iv plaintext), some key⟩ → iv.length = gcmIvBytes → plaintext ≠ [] →
      plaintext.length ≤ maxPlaintextBytes →
      platform.parseToJsonElement (platform.decodeUtf8 plaintext) = some (.object value) →
      IsLegacyRecord platform allowInsecureLoopback value endpoint credentialId deviceId accessToken
        createdAt pin →
      ∃ c, load gcm platform allowInsecureLoopback s = (.loaded c, s) ∧ c.createdAt = createdAt ∧
        c.tokenIssuedAt = createdAt) ∧
    (∀ (s : Storage Key) (content : Bytes), s.file = some content →
      (∀ version c, ¬ StoresRecord gcm platform allowInsecureLoopback s.key content version c) →
      (load gcm platform allowInsecureLoopback s).1 = .corrupt ∧
        (load gcm platform allowInsecureLoopback s).2.file = none) := by
  have hsame : ∀ c : StoredHubCredential, sameAuthority c c = true := fun c => by simp [sameAuthority]
  refine ⟨?_, ?_, ?_⟩
  · intro s c answers key iv hadmitted htoken hback hkey hiv hlength hwritten
    obtain ⟨content, hsave, hstored⟩ :=
      save_stores hgcm hplatform hback hadmitted htoken hkey hiv hlength hwritten
    exact ⟨c, _, hsave, hsame c, c, load_of_stored hgcm rfl hstored, hsame c⟩
  · rintro s key iv plaintext value endpoint credentialId deviceId accessToken createdAt pin rfl hiv hne
      hshort hparse hlegacy
    obtain ⟨c, hrecord, hcreated, hissued⟩ := hlegacy.isRecord
    exact ⟨c, load_of_stored hgcm rfl ⟨key, iv, plaintext, value, rfl, hiv, hne, hshort, rfl, hparse,
      hrecord⟩, hcreated, hissued⟩
  · intro s content hfile hother
    rw [load_of_other hgcm hfile hother]
    exact ⟨rfl, rfl⟩

end Store

/-- A cipher that writes its tag behind the text. -/
def demoGcm : Gcm Unit where
  encrypt _ _ plaintext := plaintext ++ List.replicate 16 0
  decrypt _ _ payload :=
    if payload.drop (payload.length - 16) = List.replicate 16 0 then
      some (payload.take (payload.length - 16))
    else none

theorem demoGcm_lawful : demoGcm.Lawful where
  decrypt_encrypt _ _ plaintext := by
    have hlength : (plaintext ++ List.replicate 16 (0 : UInt8)).length - 16 = plaintext.length := by simp
    rw [demoGcm]
    dsimp only
    rw [hlength, List.drop_left, if_pos rfl, List.take_left]
  encrypt_of_decrypt _ _ payload plaintext h := by
    rw [demoGcm] at h ⊢
    dsimp only at h ⊢
    split at h
    case isTrue htag =>
      rw [← Option.some.inj h, ← htag, List.take_append_drop]
    case isFalse => cases h
  length_encrypt _ _ plaintext := by simp [demoGcm]

/-- What is read and written here: one URL and one instant. -/
def demoPlatform (record : Option JsonElement) : Platform where
  parseUri s :=
    if s = lit "wss://hub/ws/v1" then
      some ⟨some (lit "wss"), none, some (lit "hub"), some HubEndpoint.hubPath, some HubEndpoint.hubPath,
        none, none⟩
    else none
  uuidFromString := GoffyPhone.uuidFromString
  instantText _ := lit "1970-01-01T00:00:00Z"
  parseInstant s := if s = lit "1970-01-01T00:00:00Z" then some 0 else none
  parseToJsonElement s := record.filter fun e => e.text = s
  decodeUtf8 b := ofChars ((Python.decodeUtf8 b).getD ['\ufffd'])
  digitBeyond _ := none

theorem demoPlatform_parse (e : JsonElement) :
    (demoPlatform (some e)).parseToJsonElement e.text = some e := by
  have hfilter : (some e).filter (fun e' => decide (e'.text = e.text)) = some e :=
    Option.filter_some_pos (decide_eq_true rfl)
  exact hfilter

theorem demoToken_length : StoredHubCredential.minTokenLength ≤ (List.replicate 32 0x61 : Str).length ∧
    (List.replicate 32 0x61 : Str).length ≤ StoredHubCredential.maxTokenLength := by decide

theorem demoIssued_after : (0 : ℤ) ≤ 0 := le_rfl

def demoCredential : StoredHubCredential where
  endpoint := lit "wss://hub/ws/v1"
  credentialId := 1
  deviceId := lit "phone"
  accessToken := List.replicate 32 0x61
  createdAt := 0
  tokenIssuedAt := 0
  hubIdentity := ⟨2, lit "sha256:" ++ List.replicate 64 0x30, 0⟩
  deviceId_matches := by decide
  token_length := demoToken_length
  issued_after := demoIssued_after

/-- The platform that parses this record. -/
def demoRecordPlatform : Platform :=
  demoPlatform (some (.object (recordMembers (demoPlatform none) demoCredential)))

theorem demoRecordPlatform_lawful : demoRecordPlatform.Lawful where
  uri s uri h _ _ _ _ _ _ := by
    have hplain : Plain (lit "wss://hub/ws/v1") := by decide +kernel
    by_cases hs : s = lit "wss://hub/ws/v1"
    · rw [hs]
      exact hplain
    · rw [demoRecordPlatform, demoPlatform] at h
      dsimp only at h
      rw [if_neg hs] at h
      cases h
  uuid := uuidFromString_uuidToString
  utf8 s := by
    rw [demoRecordPlatform, demoPlatform]
    dsimp only
    rw [Python.decodeUtf8_utf8, Option.getD_some]

theorem demo_credential_loads :
    (∃ persisted s', save demoGcm demoRecordPlatform false ⟨some (), some (List.replicate 12 7), true⟩
        demoCredential ⟨none, none⟩ = (.ok persisted, s') ∧ sameAuthority persisted demoCredential = true ∧
      ∃ loaded, load demoGcm demoRecordPlatform false s' = (.loaded loaded, s') ∧
        sameAuthority loaded demoCredential = true) ∧
    (load demoGcm demoRecordPlatform false ⟨some [1], some ()⟩).1 = .corrupt ∧
      (load demoGcm demoRecordPlatform false ⟨some [1], some ()⟩).2.file = none := by
  have hstore := @stored_credential_loads Unit demoGcm demoRecordPlatform false demoGcm_lawful
    demoRecordPlatform_lawful
  refine ⟨?_, hstore.2.2 ⟨some [1], some ()⟩ [1] rfl ?_⟩
  · have hinstant : ReadsInstant demoRecordPlatform 0 :=
      ⟨by decide +kernel, by decide +kernel, by decide +kernel⟩
    exact hstore.1 ⟨none, none⟩ demoCredential ⟨some (), some (List.replicate 12 7), true⟩ ()
      (List.replicate 12 7) ⟨rfl, by decide +kernel⟩ (by decide +kernel)
      ⟨hinstant, hinstant, hinstant, demoPlatform_parse _⟩ rfl rfl rfl rfl
  · rintro version c ⟨key, iv, plaintext, value, -, hiv, -, -, hcontent, -⟩
    have hsize := @length_sealed Unit demoGcm key iv plaintext demoGcm_lawful hiv
    rw [← hcontent, List.length_singleton] at hsize
    omega

end GoffyPhone.CredentialStore
