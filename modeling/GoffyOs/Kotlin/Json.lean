import GoffyOs.Kotlin.Units
import GoffyOs.Lib.Checks
import GoffyOs.Python.Json

/-!
# JSON on the phone

A `JsonElement` of `kotlinx.serialization` as the protocol reads it: a literal keeps its text and whether
it was quoted, so that numbers and Booleans are read from the text. The accessors are those of the
protocol, and an error is the message of a `ProtocolException`.

`ofPython` is what the phone's parser makes of the text that the Hub wrote for a value.
-/

namespace Kotlin

/-- `JsonElement`. -/
inductive JsonElement
  | null
  /-- `JsonLiteral` -/
  | literal (content : Str) (isString : Bool)
  | array (items : List JsonElement)
  | object (members : List (Str × JsonElement))

/-- `JsonObject`, a map from its keys. -/
abbrev JsonObject := List (Str × JsonElement)

/-- `this[key]`. -/
def JsonObject.get (o : JsonObject) (key : Str) : Option JsonElement := o.lookup key

namespace JsonElement

/-- `(this as? JsonPrimitive)?.content`. -/
def content? : JsonElement → Option Str
  | .null => some (lit "null")
  | .literal content _ => some content
  | .array _ | .object _ => none

/-- `stringValueOrNull`. -/
def stringValueOrNull : JsonElement → Option Str
  | .literal content true => some content
  | _ => none

/-- The decimal digits of a text. -/
def digits? (s : List Char) : Option ℕ :=
  if s ≠ [] ∧ s.all Char.isDigit then some (Nat.ofDigitChars 10 s 0) else none

/-- The integer that a text writes; the Hub writes none with a fraction or an exponent. -/
def integer? : List Char → Option ℤ
  | '-' :: s => (digits? s).map fun n => -(n : ℤ)
  | s => (digits? s).map fun n => (n : ℤ)

/-- The integer of a primitive, within so many bits. -/
def boundedOrNull (bits : ℕ) (e : JsonElement) : Option ℤ :=
  (e.content?.bind fun s => integer? (toChars s)).filter fun n =>
    -(2 ^ (bits - 1) : ℤ) ≤ n && n < 2 ^ (bits - 1)

/-- `intOrNull`. -/
def intOrNull (e : JsonElement) : Option ℤ := e.boundedOrNull 32

/-- `longOrNull`. -/
def longOrNull (e : JsonElement) : Option ℤ := e.boundedOrNull 64

/-- `booleanOrNull`. -/
def booleanOrNull (e : JsonElement) : Option Bool :=
  match e.content?.map (·.map foldUnit) with
  | some s => if s = lit "true" then some true else if s = lit "false" then some false else none
  | none => none

end JsonElement

/-! ### Required fields -/

/-- A computation that may end with a `ProtocolException`, by its message. -/
abbrev Checked (α : Type) := Except Str α

def protocolException {α : Type} (message : Str) : Checked α := .error message

namespace JsonObject

variable (o : JsonObject) (key : Str)

/-- A field, as `f` reads it. -/
def require {α : Type} (f : JsonElement → Option α) (what : String) : Checked α :=
  match (o.get key).bind f with
  | some a => .ok a
  | none => protocolException (key ++ lit what)

/-- A field that may be missing or `null`. -/
def requireNullable {α : Type} (f : JsonElement → Option α) (what : String) :
    Checked (Option α) :=
  match o.get key with
  | none | some .null => .ok none
  | some e =>
    match f e with
    | some a => .ok (some a)
    | none => protocolException (key ++ lit what)

def requireString : Checked Str := o.require key (·.stringValueOrNull) " must be a string"

def requireNullableString : Checked (Option Str) :=
  o.requireNullable key (·.stringValueOrNull) " must be a string or null"

def requireInt : Checked ℤ := o.require key (·.intOrNull) " must be an integer"

def requireNullableInt : Checked (Option ℤ) :=
  o.requireNullable key (·.intOrNull) " must be an integer or null"

def requireLong : Checked ℤ := o.require key (·.longOrNull) " must be an integer"

def requireNullableLong : Checked (Option ℤ) :=
  o.requireNullable key (·.longOrNull) " must be an integer or null"

def requireBoolean : Checked Bool := o.require key (·.booleanOrNull) " must be a boolean"

def requireArray : Checked (List JsonElement) :=
  o.require key (fun | .array items => some items | _ => none) " must be an array"

def requireObject : Checked JsonObject :=
  o.require key (fun | .object members => some members | _ => none) " must be an object"

/-- `requireBounded`. -/
def requireLength (value : Str) (minimum maximum : ℕ) : Checked Unit :=
  if minimum ≤ value.length ∧ value.length ≤ maximum then .ok ()
  else protocolException (key ++ lit " is outside the supported length")

/-- A number lies between the bounds. -/
def requireRange (value minimum maximum : ℤ) : Checked Unit :=
  if minimum ≤ value ∧ value ≤ maximum then .ok ()
  else protocolException (key ++ lit " is outside the supported range")

theorem requireRange_eq_ok {key : Str} {value minimum maximum : ℤ} {u : Unit} :
    requireRange key value minimum maximum = .ok u ↔ minimum ≤ value ∧ value ≤ maximum :=
  Checks.ite_error_eq_ok.trans (and_iff_left rfl)

def requireBoundedString (minimum maximum : ℕ) : Checked Str := do
  let value ← o.requireString key
  requireLength key value minimum maximum
  return value

def requireNullableBoundedString (maximum : ℕ) : Checked (Option Str) := do
  let value ← o.requireNullableString key
  if let some value := value then requireLength key value 1 maximum
  return value

def requireBoundedInt (minimum maximum : ℤ) : Checked ℤ := do
  let value ← o.requireInt key
  requireRange key value minimum maximum
  return value

def requireBoundedLong (minimum maximum : ℤ) : Checked ℤ := do
  let value ← o.requireLong key
  requireRange key value minimum maximum
  return value

/-- `requireKeys`. -/
def requireKeys (required optional : List String) : Checked Unit :=
  if (∀ k ∈ required, ∃ m ∈ o, m.1 = lit k) ∧ (∀ m ∈ o, ∃ k ∈ required ++ optional, m.1 = lit k) then
    .ok ()
  else protocolException (lit "message contains missing or unsupported fields")

end JsonObject

/-- `boundedObjects`. -/
def boundedObjects {α : Type} (items : List JsonElement) (maximum : ℕ) (field : Str)
    (decode : JsonObject → Checked α) : Checked (List α) :=
  if maximum < items.length then protocolException (field ++ lit " has too many entries")
  else items.mapM fun
    | .object members => decode members
    | _ => protocolException (field ++ lit " entries must be objects")

/-! ### Values of the Hub -/

mutual

/-- The element that the parser reads from the text of a value. -/
def JsonElement.ofPython : Python.Json → JsonElement
  | .null => .null
  | .bool b => .literal (choose b "true" "false") false
  | .int n => .literal (ofChars (Python.intStr n)) false
  | .float repr => .literal (ofChars repr) false
  | .str s => .literal (ofChars s) true
  | .array items => .array (ofPythonItems items)
  | .object members => .object (ofPythonMembers members)

def ofPythonItems : List Python.Json → List JsonElement
  | [] => []
  | item :: items => JsonElement.ofPython item :: ofPythonItems items

def ofPythonMembers : List (Python.Str × Python.Json) → JsonObject
  | [] => []
  | (key, value) :: members => (ofChars key, JsonElement.ofPython value) :: ofPythonMembers members

end

theorem ofPythonItems_eq_map (items : List Python.Json) :
    ofPythonItems items = items.map JsonElement.ofPython := by
  induction items with
  | nil => rfl
  | cons item items ih => rw [ofPythonItems, ih, List.map_cons]

theorem ofPythonMembers_eq_map (members : List (Python.Str × Python.Json)) :
    ofPythonMembers members = members.map fun m => (ofChars m.1, JsonElement.ofPython m.2) := by
  induction members with
  | nil => rfl
  | cons m members ih => rw [ofPythonMembers, ih, List.map_cons]

/-- The decimal text of an integer reads back. -/
theorem integer?_intStr (n : ℤ) : JsonElement.integer? (Python.intStr n) = some n := by
  have hdigits : ∀ m : ℕ, JsonElement.digits? (Python.natStr m) = some m := by
    intro m
    have hne : Python.natStr m ≠ [] := by simp [Python.natStr]
    have hall : (Python.natStr m).all Char.isDigit = true := by
      rw [List.all_eq_true]
      exact fun c hc => Nat.isDigit_of_mem_toDigits (by decide) (by decide) hc
    rw [JsonElement.digits?, if_pos ⟨hne, hall⟩]
    exact congrArg some Nat.ofDigitChars_ten_toDigits
  cases n with
  | ofNat m =>
    rw [Python.intStr]
    unfold JsonElement.integer?
    split
    case h_1 s hminus =>
      have hminus' : '-' ∈ Python.natStr m := by rw [hminus]; exact List.mem_cons_self
      have h48 := Python.toNat_of_mem_natStr hminus'
      exact absurd h48.1 (by decide)
    case h_2 => rw [hdigits]; rfl
  | negSucc m =>
    rw [Python.intStr, JsonElement.integer?, hdigits]
    rfl

theorem boundedOrNull_int (bits : ℕ) (n : ℤ) :
    (JsonElement.ofPython (.int n)).boundedOrNull bits =
      if -(2 ^ (bits - 1) : ℤ) ≤ n ∧ n < 2 ^ (bits - 1) then some n else none := by
  rw [JsonElement.ofPython, JsonElement.boundedOrNull, JsonElement.content?, Option.bind_some,
    toChars_ofChars, integer?_intStr]
  by_cases h : -(2 ^ (bits - 1) : ℤ) ≤ n ∧ n < 2 ^ (bits - 1) <;> simp [Option.filter, h]

theorem intOrNull_int {n : ℤ} (h : -2147483648 ≤ n ∧ n ≤ 2147483647) :
    (JsonElement.ofPython (.int n)).intOrNull = some n := by
  rw [JsonElement.intOrNull, boundedOrNull_int, if_pos]
  norm_num
  omega

theorem booleanOrNull_bool (b : Bool) : (JsonElement.ofPython (.bool b)).booleanOrNull = some b := by
  cases b <;> decide

/-! ### Fields of the Hub's objects -/

section Members

variable {members : List (Python.Str × Python.Json)} {key : String}

theorem get_ofPythonMembers (members : List (Python.Str × Python.Json)) (key : String) :
    JsonObject.get (ofPythonMembers members) (lit key) =
      (members.lookup key.toList).map JsonElement.ofPython := by
  unfold JsonObject.get lit
  induction members with
  | nil => rfl
  | cons m members ih =>
    rw [ofPythonMembers, List.lookup_cons, List.lookup_cons, ih]
    by_cases h : key.toList = m.1
    · rw [h]
      simp
    · have hne : (ofChars key.toList == ofChars m.1) = false := by
        rw [beq_eq_false_iff_ne]
        exact fun heq => h (ofChars_injective heq)
      rw [hne, show (key.toList == m.1) = false by simpa using h]

theorem requireKeys_ofPython {required optional : List String} (names : List String)
    (hnames : members.map (·.1) = names.map String.toList) (hrequired : ∀ k ∈ required, k ∈ names)
    (hknown : ∀ k ∈ names, k ∈ required ++ optional) :
    JsonObject.requireKeys (ofPythonMembers members) required optional = .ok () := by
  rw [ofPythonMembers_eq_map, JsonObject.requireKeys, if_pos]
  refine ⟨fun k hk => ?_, fun m hm => ?_⟩
  · have hmem : k.toList ∈ members.map (·.1) := by
      rw [hnames]
      exact List.mem_map_of_mem (hrequired k hk)
    obtain ⟨m, hm, hmk⟩ := List.mem_map.1 hmem
    exact ⟨_, List.mem_map_of_mem hm, congrArg ofChars hmk⟩
  · obtain ⟨m', hm', rfl⟩ := List.mem_map.1 hm
    have hmem : m'.1 ∈ names.map String.toList := by
      rw [← hnames]
      exact List.mem_map_of_mem hm'
    obtain ⟨k, hk, hkm⟩ := List.mem_map.1 hmem
    exact ⟨k, hknown k hk, congrArg ofChars hkm.symm⟩

/-- A required field, as the Hub wrote it. -/
theorem require_ofPython {α : Type} {f : JsonElement → Option α} {what : String} {a : α}
    {value : Python.Json} (h : members.lookup key.toList = some value)
    (hf : f (JsonElement.ofPython value) = some a) :
    JsonObject.require (ofPythonMembers members) (lit key) f what = .ok a := by
  rw [JsonObject.require, get_ofPythonMembers, h, Option.map_some, Option.bind_some, hf]

/-- A field that may be `null`, as the Hub wrote it. -/
theorem requireNullable_ofPython {α β : Type} {f : JsonElement → Option α} {what : String}
    {g : β → Python.Json} {k : β → α} {o : Option β}
    (h : members.lookup key.toList = some (o.elim .null g))
    (hf : ∀ b ∈ o, f (JsonElement.ofPython (g b)) = some (k b)) (hnull : f .null = none) :
    JsonObject.requireNullable (ofPythonMembers members) (lit key) f what = .ok (o.map k) := by
  rw [JsonObject.requireNullable, get_ofPythonMembers, h, Option.map_some]
  cases o with
  | none => rfl
  | some b =>
    have hb := hf b rfl
    rw [Option.elim_some]
    split
    case h_1 hnone => exact absurd hnone (Option.some_ne_none _)
    case h_2 hsome =>
      rw [Option.some.inj hsome, hnull] at hb
      exact absurd hb.symm (Option.some_ne_none _)
    case h_3 e _ hsome =>
      rw [← Option.some.inj hsome, hb]
      rfl

theorem requireString_ofPython {s : Python.Str} (h : members.lookup key.toList = some (.str s)) :
    JsonObject.requireString (ofPythonMembers members) (lit key) = .ok (ofChars s) :=
  require_ofPython h rfl

theorem requireBoundedString_iff {s : Python.Str} {minimum maximum : ℕ}
    (h : members.lookup key.toList = some (.str s)) (v : Str) :
    JsonObject.requireBoundedString (ofPythonMembers members) (lit key) minimum maximum = .ok v ↔
      v = ofChars s ∧ minimum ≤ (ofChars s).length ∧ (ofChars s).length ≤ maximum := by
  rw [JsonObject.requireBoundedString, requireString_ofPython h, Checks.ok_bind, Checks.bind_eq_ok]
  constructor
  · rintro ⟨_, hlength, hv⟩
    exact ⟨(Except.ok.inj hv).symm, (Checks.ite_error_eq_ok.1 hlength).1⟩
  · rintro ⟨rfl, hlength⟩
    exact ⟨(), if_pos hlength, rfl⟩

theorem requireBoundedString_ofPython {s : Python.Str} {minimum maximum : ℕ}
    (h : members.lookup key.toList = some (.str s))
    (hs : minimum ≤ (ofChars s).length ∧ (ofChars s).length ≤ maximum) :
    JsonObject.requireBoundedString (ofPythonMembers members) (lit key) minimum maximum =
      .ok (ofChars s) :=
  (requireBoundedString_iff h _).2 ⟨rfl, hs⟩

theorem requireNullableBoundedString_ofPython {o : Option Python.Str} {maximum : ℕ}
    (h : members.lookup key.toList = some (o.elim .null .str))
    (ho : ∀ s ∈ o, 1 ≤ (ofChars s).length ∧ (ofChars s).length ≤ maximum) :
    JsonObject.requireNullableBoundedString (ofPythonMembers members) (lit key) maximum =
      .ok (o.map ofChars) := by
  have hstring : JsonObject.requireNullableString (ofPythonMembers members) (lit key) =
      .ok (o.map ofChars) := requireNullable_ofPython h (fun s _ => rfl) rfl
  rw [JsonObject.requireNullableBoundedString, hstring]
  cases o with
  | none => rfl
  | some s =>
    dsimp only [bind, Except.bind, Option.map_some]
    rw [JsonObject.requireLength, if_pos (ho s rfl)]
    rfl

theorem requireBoundedInt_ofPython {n minimum maximum : ℤ}
    (h : members.lookup key.toList = some (.int n)) (hn : minimum ≤ n ∧ n ≤ maximum)
    (hbits : -2147483648 ≤ minimum ∧ maximum ≤ 2147483647) :
    JsonObject.requireBoundedInt (ofPythonMembers members) (lit key) minimum maximum = .ok n := by
  have hint : JsonObject.requireInt (ofPythonMembers members) (lit key) = .ok n :=
    require_ofPython h (intOrNull_int (by omega))
  rw [JsonObject.requireBoundedInt, hint]
  dsimp only [bind, Except.bind]
  rw [JsonObject.requireRange, if_pos hn]
  rfl

/-- A number of so many bits. -/
theorem require_int {bits : ℕ} {what : String} {n : ℤ}
    (h : members.lookup key.toList = some (.int n)) (v : ℤ) :
    JsonObject.require (ofPythonMembers members) (lit key) (·.boundedOrNull bits) what = .ok v ↔
      v = n ∧ -(2 ^ (bits - 1) : ℤ) ≤ n ∧ n < 2 ^ (bits - 1) := by
  rw [JsonObject.require, get_ofPythonMembers, h, Option.map_some, Option.bind_some,
    boundedOrNull_int]
  by_cases hn : -(2 ^ (bits - 1) : ℤ) ≤ n ∧ n < 2 ^ (bits - 1)
  · rw [if_pos hn]
    exact ⟨fun hv => ⟨(Except.ok.inj hv).symm, hn⟩, fun hv => congrArg Except.ok hv.1.symm⟩
  · rw [if_neg hn]
    exact ⟨fun hv => absurd hv (by simp [protocolException]), fun hv => absurd hv.2 hn⟩

theorem requireBoundedLong_iff {n minimum maximum : ℤ}
    (h : members.lookup key.toList = some (.int n))
    (hbits : -9223372036854775808 ≤ minimum ∧ maximum ≤ 9223372036854775807) (v : ℤ) :
    JsonObject.requireBoundedLong (ofPythonMembers members) (lit key) minimum maximum = .ok v ↔
      v = n ∧ minimum ≤ n ∧ n ≤ maximum := by
  rw [JsonObject.requireBoundedLong, Checks.bind_eq_ok]
  constructor
  · rintro ⟨m, hm, hv⟩
    obtain ⟨rfl, -⟩ := (require_int h m).1 hm
    obtain ⟨_, hrange, hv⟩ := Checks.bind_eq_ok.1 hv
    exact ⟨(Except.ok.inj hv).symm, JsonObject.requireRange_eq_ok.1 hrange⟩
  · rintro ⟨rfl, hn⟩
    refine ⟨v, (require_int h v).2 ⟨rfl, ?_⟩,
      Checks.bind_eq_ok.2 ⟨(), JsonObject.requireRange_eq_ok.2 hn, rfl⟩⟩
    norm_num
    omega

theorem requireBoolean_ofPython {b : Bool} (h : members.lookup key.toList = some (.bool b)) :
    JsonObject.requireBoolean (ofPythonMembers members) (lit key) = .ok b :=
  require_ofPython h (booleanOrNull_bool b)

theorem requireArray_ofPython {items : List Python.Json}
    (h : members.lookup key.toList = some (.array items)) :
    JsonObject.requireArray (ofPythonMembers members) (lit key) = .ok (ofPythonItems items) :=
  require_ofPython h rfl

/-- A number that may be `null`, of so many bits. -/
theorem requireNullable_int {bits : ℕ} {what : String} {o : Option ℤ}
    (h : members.lookup key.toList = some (o.elim .null .int)) (v : Option ℤ) :
    JsonObject.requireNullable (ofPythonMembers members) (lit key) (·.boundedOrNull bits) what =
      .ok v ↔ v = o ∧ ∀ n ∈ o, -(2 ^ (bits - 1) : ℤ) ≤ n ∧ n < 2 ^ (bits - 1) := by
  rw [JsonObject.requireNullable, get_ofPythonMembers, h, Option.map_some]
  cases o with
  | none =>
    constructor
    · intro hv
      exact ⟨(Except.ok.inj hv).symm, by simp⟩
    · rintro ⟨rfl, -⟩
      rfl
  | some n =>
    have hread := boundedOrNull_int bits n
    rw [Option.elim_some]
    rw [JsonElement.ofPython] at hread ⊢
    dsimp only
    rw [hread]
    by_cases hn : -(2 ^ (bits - 1) : ℤ) ≤ n ∧ n < 2 ^ (bits - 1)
    · rw [if_pos hn]
      constructor
      · intro hv
        refine ⟨(Except.ok.inj hv).symm, fun m hm => ?_⟩
        rw [← Option.some.inj hm]
        exact hn
      · rintro ⟨rfl, -⟩
        rfl
    · rw [if_neg hn]
      exact ⟨fun hv => absurd hv (by simp [protocolException]), fun hv => absurd (hv.2 n rfl) hn⟩

theorem requireNullableInt_iff {o : Option ℤ}
    (h : members.lookup key.toList = some (o.elim .null .int)) (v : Option ℤ) :
    JsonObject.requireNullableInt (ofPythonMembers members) (lit key) = .ok v ↔
      v = o ∧ ∀ n ∈ o, -2147483648 ≤ n ∧ n ≤ 2147483647 := by
  refine (requireNullable_int h v).trans (and_congr_right' (forall₂_congr fun n _ => ?_))
  norm_num
  omega

theorem requireNullableLong_iff {o : Option ℤ}
    (h : members.lookup key.toList = some (o.elim .null .int)) (v : Option ℤ) :
    JsonObject.requireNullableLong (ofPythonMembers members) (lit key) = .ok v ↔
      v = o ∧ ∀ n ∈ o, -9223372036854775808 ≤ n ∧ n ≤ 9223372036854775807 := by
  refine (requireNullable_int h v).trans (and_congr_right' (forall₂_congr fun n _ => ?_))
  norm_num
  omega

/-- Entries of the Hub, each of them read where `P` holds. -/
theorem boundedObjects_iff {α β : Type} {entries : List β}
    {dump : β → List (Python.Str × Python.Json)} {decode : JsonObject → Checked α} {k : β → α}
    {P : β → Prop} {maximum : ℕ} {field : Str} (hlength : entries.length ≤ maximum)
    (hdecode : ∀ b ∈ entries, ∀ a, decode (ofPythonMembers (dump b)) = .ok a ↔ a = k b ∧ P b)
    (as : List α) :
    boundedObjects (ofPythonItems (entries.map fun b => .object (dump b))) maximum field decode =
      .ok as ↔ as = entries.map k ∧ ∀ b ∈ entries, P b := by
  have hitems : ofPythonItems (entries.map fun b => .object (dump b)) =
      entries.map fun b => JsonElement.object (ofPythonMembers (dump b)) := by
    rw [ofPythonItems_eq_map, List.map_map]
    exact List.map_congr_left fun b _ => by rw [Function.comp_apply, JsonElement.ofPython]
  rw [hitems, boundedObjects, List.length_map, if_neg (Nat.not_lt.2 hlength)]
  refine Checks.mapM_map_eq_ok_iff (fun b hb a => ?_) as
  exact hdecode b hb a

theorem boundedObjects_ofPython {α β : Type} {entries : List β}
    {dump : β → List (Python.Str × Python.Json)} {decode : JsonObject → Checked α} {k : β → α}
    {maximum : ℕ} {field : Str} (hlength : entries.length ≤ maximum)
    (hdecode : ∀ b ∈ entries, decode (ofPythonMembers (dump b)) = .ok (k b)) :
    boundedObjects (ofPythonItems (entries.map fun b => .object (dump b))) maximum field decode =
      .ok (entries.map k) := by
  refine (boundedObjects_iff (P := fun _ => True) hlength (fun b hb a => ?_) _).2
    ⟨rfl, fun _ _ => trivial⟩
  rw [hdecode b hb]
  exact ⟨fun h => ⟨(Except.ok.inj h).symm, trivial⟩, fun h => h.1 ▸ rfl⟩

end Members

end Kotlin
