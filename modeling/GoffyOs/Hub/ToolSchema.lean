import GoffyOs.Lib.Dict
import GoffyOs.Lib.Ranking
import GoffyOs.Python.Json
import Mathlib.Data.Char
import Mathlib.Data.List.Lex

/-!
# The JSON Schemas of tools (`goffy_protocol/models.py`)

`normalize_json_schema` takes the titles that pydantic generates out of the schema of a tool, names the
dialect and sorts the keys. In a schema `title` is an annotation; under `properties` it is the name of a
property, under `$defs` that of a definition, and in a default value it is data. The code knows the names
of properties and no others.

* `containsTitle_normalizeValue` and `normalizeJsonSchema_again`: no title is left, and a second run
  changes nothing;
* `kept_iff`: what the code takes out of a value are annotations exactly if the keys that it takes for
  titles are all keys of schemas.
-/

namespace GoffyHub.ToolSchema

open Python

abbrev Members := List (Str × Json)

def titleKey : Str := "title".toList
def propertiesKey : Str := "properties".toList
def schemaKey : Str := "$schema".toList
def typeKey : Str := "type".toList

/-- `JSON_SCHEMA_DIALECT`. -/
def jsonSchemaDialect : Str := "https://json-schema.org/draft/2020-12/schema".toList

/-! ### The code -/

/-- The flag `property_map` below a key: the members of `properties` have names, except where
`properties` is a name itself. -/
def propertyMapBelow (propertyMap : Bool) (key : Str) : Bool := !propertyMap && key = propertiesKey

mutual

/-- `_contains_json_schema_title`. -/
def containsTitle (propertyMap : Bool) : Json → Bool
  | .object members => membersContainTitle propertyMap members
  | .array items => itemsContainTitle items
  | .null | .bool _ | .int _ | .float _ | .str _ => false

def membersContainTitle (propertyMap : Bool) : List (Str × Json) → Bool
  | [] => false
  | (key, item) :: members =>
    (!propertyMap && key = titleKey) || containsTitle (propertyMapBelow propertyMap key) item ||
      membersContainTitle propertyMap members

def itemsContainTitle : List Json → Bool
  | [] => false
  | item :: items => containsTitle false item || itemsContainTitle items

end

mutual

/-- `_normalize_json_schema_value`. -/
def normalizeValue (propertyMap : Bool) : Json → Json
  | .object members => .object (normalizeMembers propertyMap members)
  | .array items => .array (normalizeItems items)
  | value => value

def normalizeMembers (propertyMap : Bool) : List (Str × Json) → List (Str × Json)
  | [] => []
  | (key, item) :: members =>
    if propertyMap = false ∧ key = titleKey then normalizeMembers propertyMap members
    else
      (key, normalizeValue (propertyMapBelow propertyMap key) item) ::
        normalizeMembers propertyMap members

def normalizeItems : List Json → List Json
  | [] => []
  | item :: items => normalizeValue false item :: normalizeItems items

end

/-- `sorted` on the keys of a map. -/
def sortKeys (members : Members) : Members := members.insertionSort fun a b => ¬ b.1 < a.1

mutual

/-- `_sort_json_keys`. -/
def sortJsonKeys : Json → Json
  | .object members => .object (sortKeys (sortMemberKeys members))
  | .array items => .array (sortItemKeys items)
  | value => value

def sortMemberKeys : List (Str × Json) → List (Str × Json)
  | [] => []
  | (key, item) :: members => (key, sortJsonKeys item) :: sortMemberKeys members

def sortItemKeys : List Json → List Json
  | [] => []
  | item :: items => sortJsonKeys item :: sortItemKeys items

end

/-! ### Values -/

/-- Neither a map nor a list. -/
def isScalar : Json → Bool
  | .array _ | .object _ => false
  | .null | .bool _ | .int _ | .float _ | .str _ => true

/-- What holds of scalars, and of a map or a list when it holds of what is in it, holds of all values. -/
theorem byMembers {motive : Json → Prop} (scalar : ∀ value, isScalar value = true → motive value)
    (array : ∀ items, (∀ item ∈ items, motive item) → motive (.array items))
    (object : ∀ members : Members, (∀ m ∈ members, motive m.2) → motive (.object members)) :
    ∀ value, motive value := by
  refine @Json.rec motive (fun items => ∀ item ∈ items, motive item)
    (fun members => ∀ m ∈ members, motive m.2) (fun m => motive m.2) (scalar _ rfl)
    (fun _ => scalar _ rfl) (fun _ => scalar _ rfl) (fun _ => scalar _ rfl) (fun _ => scalar _ rfl)
    array object ?_ ?_ ?_ ?_ ?_
  · exact fun _ h => absurd h List.not_mem_nil
  · exact fun _ _ hitem hitems => List.forall_mem_cons.2 ⟨hitem, hitems⟩
  · exact fun _ h => absurd h List.not_mem_nil
  · exact fun _ _ hm hmembers => List.forall_mem_cons.2 ⟨hm, hmembers⟩
  · exact fun _ _ h => h

section Lists

variable {propertyMap : Bool} {value : Json}

@[simp] theorem containsTitle_scalar (h : isScalar value = true) :
    containsTitle propertyMap value = false := by
  cases value <;> first | rfl | cases h

@[simp] theorem normalizeValue_scalar (h : isScalar value = true) :
    normalizeValue propertyMap value = value := by
  cases value <;> first | rfl | cases h

@[simp] theorem sortJsonKeys_scalar (h : isScalar value = true) : sortJsonKeys value = value := by
  cases value <;> first | rfl | cases h

theorem membersContainTitle_iff {members : Members} :
    membersContainTitle propertyMap members = true ↔ ∃ m ∈ members,
      (propertyMap = false ∧ m.1 = titleKey) ∨
        containsTitle (propertyMapBelow propertyMap m.1) m.2 = true := by
  induction members with
  | nil => simp [membersContainTitle]
  | cons m members ih => simp [membersContainTitle, ih]

theorem itemsContainTitle_iff {items : List Json} :
    itemsContainTitle items = true ↔ ∃ item ∈ items, containsTitle false item = true := by
  induction items with
  | nil => simp [itemsContainTitle]
  | cons item items ih => simp [itemsContainTitle, ih]

theorem normalizeMembers_eq (members : Members) : normalizeMembers propertyMap members =
    (members.filter fun m => ¬ (propertyMap = false ∧ m.1 = titleKey)).map
      fun m => (m.1, normalizeValue (propertyMapBelow propertyMap m.1) m.2) := by
  induction members with
  | nil => rfl
  | cons m members ih =>
    rw [normalizeMembers, ih, List.filter_cons]
    split
    case isTrue h => rw [if_neg (by simp [h.1, h.2])]
    case isFalse h => rw [if_pos (decide_eq_true h), List.map_cons]

theorem normalizeItems_eq (items : List Json) :
    normalizeItems items = items.map (normalizeValue false) := by
  induction items with
  | nil => rfl
  | cons item items ih => rw [normalizeItems, ih, List.map_cons]

theorem sortMemberKeys_eq (members : Members) :
    sortMemberKeys members = members.map fun m => (m.1, sortJsonKeys m.2) := by
  induction members with
  | nil => rfl
  | cons m members ih => rw [sortMemberKeys, ih, List.map_cons]

theorem sortItemKeys_eq (items : List Json) : sortItemKeys items = items.map sortJsonKeys := by
  induction items with
  | nil => rfl
  | cons item items ih => rw [sortItemKeys, ih, List.map_cons]

end Lists

/-! ### Keys -/

/-- The keys of a map are distinct, as those of a `dict` are, and so in what is in the value. -/
inductive Distinct : Json → Prop
  | scalar {value : Json} (h : isScalar value = true) : Distinct value
  | array {items : List Json} (h : ∀ item ∈ items, Distinct item) : Distinct (.array items)
  | object {members : Members} (hkeys : (members.map Prod.fst).Nodup)
      (h : ∀ m ∈ members, Distinct m.2) : Distinct (.object members)

theorem mem_of_lookup {members : Members} {key : Str} {item : Json}
    (h : members.lookup key = some item) : (key, item) ∈ members := by
  obtain ⟨pre, post, rfl, -⟩ := List.lookup_eq_some_iff.1 h
  simp

theorem lookup_of_mem {members : Members} (hkeys : (members.map Prod.fst).Nodup) {m : Str × Json}
    (hmem : m ∈ members) : members.lookup m.1 = some m.2 := by
  obtain ⟨pre, post, rfl⟩ := List.append_of_mem hmem
  refine List.lookup_eq_some_iff.2 ⟨pre, post, rfl, fun p hp => ?_⟩
  rw [List.map_append, List.nodup_append] at hkeys
  have hne := hkeys.2.2 p.1 (List.mem_map_of_mem hp) m.1 (by simp)
  simpa using hne.symm

theorem lookup_eq_some_iff {members : Members} (hkeys : (members.map Prod.fst).Nodup) {key : Str}
    {item : Json} : members.lookup key = some item ↔ (key, item) ∈ members :=
  ⟨mem_of_lookup, fun h => lookup_of_mem hkeys h⟩

/-- The order of the members makes no difference to what is found. -/
theorem lookup_perm {members members' : Members} (hperm : members.Perm members')
    (hkeys : (members.map Prod.fst).Nodup) (key : Str) : members.lookup key = members'.lookup key := by
  refine Option.ext fun item => ?_
  rw [lookup_eq_some_iff hkeys, lookup_eq_some_iff ((hperm.map _).nodup_iff.1 hkeys), hperm.mem_iff]

theorem perm_sortKeys (members : Members) : (sortKeys members).Perm members :=
  List.perm_insertionSort _ members

theorem mem_sortKeys {members : Members} {m : Str × Json} : m ∈ sortKeys members ↔ m ∈ members :=
  (perm_sortKeys members).mem_iff

theorem pairwise_sortKeys (members : Members) :
    (sortKeys members).Pairwise fun a b => ¬ b.1 < a.1 := by
  refine Ranking.pairwise_insertionSort (fun a b c hab hbc => ?_) (fun a b h => h)
    (fun a b h => ?_) members
  · rw [not_lt] at *
    exact le_trans hab hbc
  · rw [not_not] at h
    exact not_lt_of_gt h

theorem sortKeys_of_pairwise {members : Members} (h : members.Pairwise fun a b => ¬ b.1 < a.1) :
    sortKeys members = members := h.insertionSort_eq

/-! ### Titles -/

section Titles

/-- No title is left. -/
theorem containsTitle_normalizeValue (value : Json) :
    ∀ propertyMap, containsTitle propertyMap (normalizeValue propertyMap value) = false := by
  induction value using byMembers with
  | scalar value h =>
    intro propertyMap
    rw [normalizeValue_scalar h, containsTitle_scalar h]
  | array items ih =>
    intro propertyMap
    rw [normalizeValue, containsTitle, ← Bool.not_eq_true, itemsContainTitle_iff, normalizeItems_eq]
    rintro ⟨item, hitem, htitle⟩
    obtain ⟨item, hmem, rfl⟩ := List.mem_map.1 hitem
    exact absurd (ih item hmem false) (by simp [htitle])
  | object members ih =>
    intro propertyMap
    rw [normalizeValue, containsTitle, ← Bool.not_eq_true, membersContainTitle_iff,
      normalizeMembers_eq]
    rintro ⟨m, hm, htitle⟩
    obtain ⟨m, hmem, rfl⟩ := List.mem_map.1 hm
    obtain ⟨hmem, hkey⟩ := List.mem_filter.1 hmem
    rcases htitle with htitle | htitle
    · exact of_decide_eq_true hkey htitle
    · exact absurd htitle (by simp [ih m hmem])

/-- A value without titles stays as it is. -/
theorem normalizeValue_of_clean (value : Json) :
    ∀ propertyMap, containsTitle propertyMap value = false → normalizeValue propertyMap value = value := by
  induction value using byMembers with
  | scalar value h => exact fun propertyMap _ => normalizeValue_scalar h
  | array items ih =>
    intro propertyMap hclean
    rw [containsTitle, ← Bool.not_eq_true, itemsContainTitle_iff] at hclean
    rw [normalizeValue, normalizeItems_eq, List.map_congr_left (g := id), List.map_id]
    exact fun item hitem => ih item hitem false (Bool.eq_false_iff.2 fun h => hclean ⟨item, hitem, h⟩)
  | object members ih =>
    intro propertyMap hclean
    rw [containsTitle, ← Bool.not_eq_true, membersContainTitle_iff] at hclean
    have hall : ∀ m ∈ members, decide (¬ (propertyMap = false ∧ m.1 = titleKey)) = true :=
      fun m hm => decide_eq_true fun h => hclean ⟨m, hm, Or.inl h⟩
    rw [normalizeValue, normalizeMembers_eq, List.filter_eq_self.2 hall,
      List.map_congr_left (g := id), List.map_id]
    intro m hm
    rw [ih m hm _ (Bool.eq_false_iff.2 fun h => hclean ⟨m, hm, Or.inr h⟩), id]

/-- The order of the keys makes no difference to the titles. -/
theorem containsTitle_sortJsonKeys (value : Json) :
    ∀ propertyMap, containsTitle propertyMap (sortJsonKeys value) = containsTitle propertyMap value := by
  induction value using byMembers with
  | scalar value h => exact fun propertyMap => by rw [sortJsonKeys_scalar h]
  | array items ih =>
    intro propertyMap
    rw [sortJsonKeys, containsTitle, containsTitle, Bool.eq_iff_iff, itemsContainTitle_iff,
      itemsContainTitle_iff, sortItemKeys_eq]
    simp only [List.mem_map, exists_exists_and_eq_and]
    exact exists_congr fun item => and_congr_right fun hitem => by rw [ih item hitem]
  | object members ih =>
    intro propertyMap
    rw [sortJsonKeys, containsTitle, containsTitle, Bool.eq_iff_iff, membersContainTitle_iff,
      membersContainTitle_iff, sortMemberKeys_eq]
    simp only [mem_sortKeys, List.mem_map, exists_exists_and_eq_and]
    exact exists_congr fun m => and_congr_right fun hm => by rw [ih m hm]

end Titles

/-! ### Sorted values -/

/-- Sorting once is enough. -/
theorem sortJsonKeys_again (value : Json) : sortJsonKeys (sortJsonKeys value) = sortJsonKeys value := by
  induction value using byMembers with
  | scalar value h => rw [sortJsonKeys_scalar h, sortJsonKeys_scalar h]
  | array items ih =>
    rw [sortJsonKeys, sortJsonKeys, sortItemKeys_eq, sortItemKeys_eq, List.map_map]
    exact congrArg Json.array (List.map_congr_left ih)
  | object members ih =>
    have hsorted : sortMemberKeys (sortKeys (sortMemberKeys members)) =
        sortKeys (sortMemberKeys members) := by
      rw [sortMemberKeys_eq, List.map_congr_left (g := id), List.map_id]
      intro m hm
      rw [mem_sortKeys, sortMemberKeys_eq] at hm
      obtain ⟨m, hmem, rfl⟩ := List.mem_map.1 hm
      exact congrArg (Prod.mk m.1) (ih m hmem)
    rw [sortJsonKeys, sortJsonKeys, hsorted, sortKeys_of_pairwise (pairwise_sortKeys _)]

/-! ### What is found under a key -/

section Lookups

variable {members : Members} {key : Str}

theorem lookup_normalizeMembers (propertyMap : Bool) (members : Members) (key : Str) :
    (normalizeMembers propertyMap members).lookup key =
      if propertyMap = false ∧ key = titleKey then none
      else (members.lookup key).map (normalizeValue (propertyMapBelow propertyMap key)) := by
  induction members with
  | nil => simp [normalizeMembers]
  | cons m members ih =>
    rw [normalizeMembers, List.lookup_cons]
    by_cases hkey : key = m.1
    · subst hkey
      split
      case isTrue h => rw [ih, if_pos h]
      case isFalse => simp
    · have hne : (key == m.1) = false := by simpa using hkey
      rw [hne]
      split
      · exact ih
      · rw [List.lookup_cons, hne]
        exact ih

theorem lookup_sortMemberKeys (members : Members) (key : Str) :
    (sortMemberKeys members).lookup key = (members.lookup key).map sortJsonKeys := by
  induction members with
  | nil => rfl
  | cons m members ih =>
    rw [sortMemberKeys, List.lookup_cons, List.lookup_cons]
    split
    · rfl
    · exact ih

theorem map_fst_sortMemberKeys (members : Members) :
    (sortMemberKeys members).map Prod.fst = members.map Prod.fst := by
  rw [sortMemberKeys_eq, List.map_map]
  rfl

theorem lookup_sorted (hkeys : (members.map Prod.fst).Nodup) (key : Str) :
    (sortKeys (sortMemberKeys members)).lookup key = (members.lookup key).map sortJsonKeys := by
  rw [← lookup_sortMemberKeys]
  refine (lookup_perm (perm_sortKeys _).symm ?_ key).symm
  rwa [map_fst_sortMemberKeys]

theorem nodup_normalizeMembers {propertyMap : Bool} (hkeys : (members.map Prod.fst).Nodup) :
    ((normalizeMembers propertyMap members).map Prod.fst).Nodup := by
  rw [normalizeMembers_eq, List.map_map]
  exact hkeys.sublist (List.filter_sublist.map Prod.fst)

end Lookups

/-! ### `normalize_json_schema` -/

/-- The schema without its titles. -/
def normalizeDict (schema : Dict Str Json) : Dict Str Json where
  entries := normalizeMembers false schema.entries
  nodup := nodup_normalizeMembers schema.nodup

def sortDict (schema : Dict Str Json) : Dict Str Json where
  entries := sortKeys (sortMemberKeys schema.entries)
  nodup := by
    rw [((perm_sortKeys _).map Prod.fst).nodup_iff, map_fst_sortMemberKeys]
    exact schema.nodup

/-- The value is the text. -/
def isText (text : Str) : Option Json → Bool
  | some (.str s) => s = text
  | _ => false

/-- `normalize_json_schema`. What it makes of a map is a map. -/
def normalizeJsonSchema (schema : Dict Str Json) : Except String (Dict Str Json) :=
  let normalized := (normalizeDict schema).set schemaKey (.str jsonSchemaDialect)
  if isText "object".toList (normalized.get? typeKey) = false then
    throw "tool schemas must use an object root"
  else
    return sortDict normalized

theorem get?_eq_lookup (schema : Dict Str Json) (key : Str) :
    schema.get? key = schema.entries.lookup key := by
  refine Option.ext fun item => ?_
  rw [Dict.get?_eq_some_iff, lookup_eq_some_iff schema.nodup]

theorem get?_normalizeDict (schema : Dict Str Json) (key : Str) :
    (normalizeDict schema).get? key = if key = titleKey then none
      else (schema.get? key).map (normalizeValue (propertyMapBelow false key)) := by
  rw [get?_eq_lookup, get?_eq_lookup, normalizeDict, lookup_normalizeMembers]
  simp only [true_and]

theorem get?_sortDict (schema : Dict Str Json) (key : Str) :
    (sortDict schema).get? key = (schema.get? key).map sortJsonKeys := by
  rw [get?_eq_lookup, get?_eq_lookup]
  exact lookup_sorted schema.nodup key

theorem isText_map_normalizeValue (text : Str) (propertyMap : Bool) (value : Option Json) :
    isText text (value.map (normalizeValue propertyMap)) = isText text value := by
  rcases value with _ | value
  · rfl
  · cases value <;> rfl

theorem isText_map_sortJsonKeys (text : Str) (value : Option Json) :
    isText text (value.map sortJsonKeys) = isText text value := by
  rcases value with _ | value
  · rfl
  · cases value <;> rfl

/-- The schemas of objects are normalized. -/
theorem normalizeJsonSchema_eq_ok {schema result : Dict Str Json} :
    normalizeJsonSchema schema = .ok result ↔
      isText "object".toList (schema.get? typeKey) = true ∧
        sortDict ((normalizeDict schema).set schemaKey (.str jsonSchemaDialect)) = result := by
  have htype : isText "object".toList
      (((normalizeDict schema).set schemaKey (.str jsonSchemaDialect)).get? typeKey) =
        isText "object".toList (schema.get? typeKey) := by
    rw [Dict.get?_set, if_neg (by decide), get?_normalizeDict, if_neg (by decide),
      isText_map_normalizeValue]
  unfold normalizeJsonSchema
  dsimp only
  rw [htype]
  constructor
  · intro h
    split at h
    · cases h
    case isFalse hroot => exact ⟨Bool.eq_true_of_not_eq_false hroot, Except.ok.inj h⟩
  · rintro ⟨hroot, rfl⟩
    rw [if_neg (by rw [hroot]; decide)]
    rfl

/-- No title is left in the schema. -/
theorem containsTitle_normalized (schema : Dict Str Json) : containsTitle false (.object
    (sortDict ((normalizeDict schema).set schemaKey (.str jsonSchemaDialect))).entries) = false := by
  have hclean : membersContainTitle false (normalizeMembers false schema.entries) = false :=
    containsTitle_normalizeValue (.object schema.entries) false
  have hset : membersContainTitle false
      ((normalizeDict schema).set schemaKey (.str jsonSchemaDialect)).entries = false := by
    rw [← Bool.not_eq_true, membersContainTitle_iff] at hclean ⊢
    rintro ⟨m, hm, htitle⟩
    rcases Dict.mem_entries_set.1 hm with rfl | ⟨hmem, -⟩
    · rcases htitle with ⟨-, htitle⟩ | htitle
      · exact absurd htitle (by decide)
      · cases htitle
    · exact hclean ⟨m, hmem, htitle⟩
  have hsort := containsTitle_sortJsonKeys
    (.object ((normalizeDict schema).set schemaKey (.str jsonSchemaDialect)).entries) false
  rw [sortJsonKeys, containsTitle, containsTitle, hset] at hsort
  rw [containsTitle]
  exact hsort

/-- A normalized schema is normalized to itself. -/
theorem normalizeJsonSchema_again {schema result : Dict Str Json}
    (h : normalizeJsonSchema schema = .ok result) : normalizeJsonSchema result = .ok result := by
  obtain ⟨hroot, rfl⟩ := normalizeJsonSchema_eq_ok.1 h
  have hclean := containsTitle_normalized schema
  set normalized := (normalizeDict schema).set schemaKey (.str jsonSchemaDialect) with hnormalized
  have hsame : normalizeDict (sortDict normalized) = sortDict normalized :=
    Dict.ext (Json.object.inj (normalizeValue_of_clean _ false hclean))
  have hdialect : (sortDict normalized).get? schemaKey = some (.str jsonSchemaDialect) := by
    rw [get?_sortDict, hnormalized, Dict.get?_set, if_pos rfl]
    rfl
  have hsorted : sortDict (sortDict normalized) = sortDict normalized :=
    Dict.ext (Json.object.inj (sortJsonKeys_again (.object normalized.entries)))
  refine normalizeJsonSchema_eq_ok.2 ⟨?_, ?_⟩
  · rw [get?_sortDict, isText_map_sortJsonKeys, hnormalized, Dict.get?_set, if_neg (by decide),
      get?_normalizeDict, if_neg (by decide), isText_map_normalizeValue, hroot]
  · rw [hsame, Dict.set_eq_self hdialect, hsorted]

/-! ### What keys mean -/

/-- What a value is in a schema of the dialect: a schema, or a list of schemas; a map from names to
schemas; or data. -/
inductive Position
  | schema
  | names
  | data
  deriving DecidableEq

/-- The keywords under which schemas have names. `definitions` is the former name of `$defs`; `dependencies`
is no keyword of the draft 2020-12 any more, so that what stands under it is data. -/
def nameKeywords : List Str :=
  ["properties".toList, "patternProperties".toList, "$defs".toList, "definitions".toList,
    "dependentSchemas".toList]

/-- The other keywords under which there are schemas. -/
def schemaKeywords : List Str :=
  ["items".toList, "prefixItems".toList, "contains".toList, "additionalProperties".toList,
    "propertyNames".toList, "unevaluatedItems".toList, "unevaluatedProperties".toList,
    "allOf".toList, "anyOf".toList, "oneOf".toList, "not".toList, "if".toList, "then".toList,
    "else".toList, "contentSchema".toList]

/-- What stands under a key. -/
def Position.below : Position → Str → Position
  | .schema, key =>
    if key ∈ nameKeywords then .names else if key ∈ schemaKeywords then .schema else .data
  | .names, _ => .schema
  | .data, _ => .data

/-- What is kept of a value: all but the order of the keys, and titles of schemas. -/
inductive Kept : Position → Json → Json → Prop
  | scalar {position : Position} {value : Json} (h : isScalar value = true) : Kept position value value
  | array {position : Position} {items kept : List Json} (hlength : items.length = kept.length)
      (h : ∀ p ∈ items.zip kept, Kept position p.1 p.2) : Kept position (.array items) (.array kept)
  | object {position : Position} {members kept : Members}
      (hadded : ∀ key, members.lookup key = none → kept.lookup key = none)
      (hgone : ∀ m ∈ members, kept.lookup m.1 = none → position = .schema ∧ m.1 = titleKey)
      (h : ∀ m ∈ members, ∀ value, kept.lookup m.1 = some value →
        Kept (position.below m.1) m.2 value) : Kept position (.object members) (.object kept)

theorem Kept.of_array {position : Position} {items kept : List Json}
    (h : Kept position (.array items) (.array kept)) : ∀ p ∈ items.zip kept, Kept position p.1 p.2 := by
  cases h with
  | scalar h => cases h
  | array hlength h => exact h

mutual

/-- The keys that the code takes for titles are all keys of schemas. -/
def titlesAnnotate (propertyMap : Bool) (position : Position) : Json → Bool
  | .object members => membersAnnotate propertyMap position members
  | .array items => itemsAnnotate position items
  | .null | .bool _ | .int _ | .float _ | .str _ => true

def membersAnnotate (propertyMap : Bool) (position : Position) : List (Str × Json) → Bool
  | [] => true
  | (key, item) :: members =>
    (if propertyMap = false ∧ key = titleKey then decide (position = .schema)
      else titlesAnnotate (propertyMapBelow propertyMap key) (position.below key) item) &&
      membersAnnotate propertyMap position members

def itemsAnnotate (position : Position) : List Json → Bool
  | [] => true
  | item :: items => titlesAnnotate false position item && itemsAnnotate position items

end

section Positions

variable {propertyMap : Bool} {position : Position}

theorem titlesAnnotate_scalar {value : Json} (h : isScalar value = true) :
    titlesAnnotate propertyMap position value = true := by
  cases value <;> first | rfl | cases h

theorem membersAnnotate_iff {members : Members} :
    membersAnnotate propertyMap position members = true ↔ ∀ m ∈ members,
      (propertyMap = false ∧ m.1 = titleKey → position = .schema) ∧
      (¬ (propertyMap = false ∧ m.1 = titleKey) →
        titlesAnnotate (propertyMapBelow propertyMap m.1) (position.below m.1) m.2 = true) := by
  induction members with
  | nil => simp [membersAnnotate]
  | cons m members ih =>
    rw [membersAnnotate, Bool.and_eq_true, ih, List.forall_mem_cons]
    refine and_congr_left fun _ => ?_
    split
    case isTrue h => simp [h]
    case isFalse h => simp [h]

theorem itemsAnnotate_iff {items : List Json} :
    itemsAnnotate position items = true ↔
      ∀ item ∈ items, titlesAnnotate false position item = true := by
  induction items with
  | nil => simp [itemsAnnotate]
  | cons item items ih => simp [itemsAnnotate, ih]

/-- A map of which the code keeps what it does not take for a title. -/
theorem kept_object_iff {members kept : Members} (hkeys : (members.map Prod.fst).Nodup)
    (hkept : ∀ key, kept.lookup key = if propertyMap = false ∧ key = titleKey then none
      else (members.lookup key).map fun item =>
        sortJsonKeys (normalizeValue (propertyMapBelow propertyMap key) item))
    (hitems : ∀ m ∈ members, ∀ propertyMap position,
      Kept position m.2 (sortJsonKeys (normalizeValue propertyMap m.2)) ↔
        titlesAnnotate propertyMap position m.2 = true) :
    Kept position (.object members) (.object kept) ↔
      titlesAnnotate propertyMap position (.object members) = true := by
  have hmember : ∀ m ∈ members, kept.lookup m.1 =
      if propertyMap = false ∧ m.1 = titleKey then none
      else some (sortJsonKeys (normalizeValue (propertyMapBelow propertyMap m.1) m.2)) := by
    intro m hm
    rw [hkept, lookup_of_mem hkeys hm]
    rfl
  rw [titlesAnnotate, membersAnnotate_iff]
  constructor
  · intro hobject m hm
    cases hobject with
    | scalar h => cases h
    | object hadded hgone h =>
      refine ⟨fun htitle => (hgone m hm ?_).1, fun hother => (hitems m hm _ _).1 (h m hm _ ?_)⟩
      · rw [hmember m hm, if_pos htitle]
      · rw [hmember m hm, if_neg hother]
  · intro h
    refine .object (fun key hnone => ?_) (fun m hm hnone => ?_) fun m hm value hvalue => ?_
    · rw [hkept, hnone, Option.map_none, ite_self]
    · rw [hmember m hm] at hnone
      split at hnone
      case isTrue htitle => exact ⟨(h m hm).1 htitle, htitle.2⟩
      case isFalse => cases hnone
    · rw [hmember m hm] at hvalue
      split at hvalue
      · cases hvalue
      case isFalse hother =>
        obtain rfl := Option.some.inj hvalue
        exact (hitems m hm _ _).2 ((h m hm).2 hother)

/-- **What the code keeps.** -/
theorem kept_iff (value : Json) (hdistinct : Distinct value) : ∀ propertyMap position,
    Kept position value (sortJsonKeys (normalizeValue propertyMap value)) ↔
      titlesAnnotate propertyMap position value = true := by
  induction value using byMembers with
  | scalar value h =>
    intro propertyMap position
    rw [normalizeValue_scalar h, sortJsonKeys_scalar h]
    exact ⟨fun _ => titlesAnnotate_scalar h, fun _ => .scalar h⟩
  | array items ih =>
    intro propertyMap position
    rw [normalizeValue, sortJsonKeys, titlesAnnotate, itemsAnnotate_iff, normalizeItems_eq,
      sortItemKeys_eq, List.map_map]
    have hzip : items.zip (items.map (sortJsonKeys ∘ normalizeValue false)) =
        items.map fun item => (item, sortJsonKeys (normalizeValue false item)) := by
      simpa using List.zip_map' (f := id) (g := sortJsonKeys ∘ normalizeValue false) (l := items)
    cases hdistinct with
    | scalar h => cases h
    | array hitems =>
      constructor
      · intro harray item hitem
        refine (ih item hitem (hitems item hitem) _ _).1 (harray.of_array (item, _) ?_)
        rw [hzip]
        exact List.mem_map_of_mem hitem
      · intro h
        refine .array (List.length_map _).symm fun p hp => ?_
        rw [hzip] at hp
        obtain ⟨item, hitem, rfl⟩ := List.mem_map.1 hp
        exact (ih item hitem (hitems item hitem) _ _).2 (h item hitem)
  | object members ih =>
    intro propertyMap position
    cases hdistinct with
    | scalar h => cases h
    | object hkeys hmembers =>
      rw [normalizeValue, sortJsonKeys]
      refine kept_object_iff hkeys (fun key => ?_) fun m hm => ih m hm (hmembers m hm)
      rw [lookup_sorted (nodup_normalizeMembers hkeys), lookup_normalizeMembers]
      split
      · rfl
      · rw [Option.map_map]
        rfl

end Positions

/-! ### Schemas -/

/-- A schema as Python holds it: the keys of each map in it are distinct. -/
structure Schema extends Dict Str Json where
  distinct : ∀ m ∈ entries, Distinct m.2

/-- The result names the dialect, and is otherwise what is kept of the schema. -/
structure NormalizedFrom (schema result : Dict Str Json) : Prop where
  dialect : result.get? schemaKey = some (.str jsonSchemaDialect)
  kept : Kept .schema (.object (schema.pop schemaKey).entries)
    (.object (result.pop schemaKey).entries)

theorem normalizedFrom_iff (schema : Schema) : NormalizedFrom schema.toDict
    (sortDict ((normalizeDict schema.toDict).set schemaKey (.str jsonSchemaDialect))) ↔
      titlesAnnotate false .schema (.object (schema.toDict.pop schemaKey).entries) = true := by
  rw [← kept_object_iff (schema.toDict.pop schemaKey).nodup (fun key => ?_) fun m hm => ?_]
  · refine ⟨fun h => h.kept, fun h => ⟨?_, h⟩⟩
    rw [get?_sortDict, Dict.get?_set, if_pos rfl]
    rfl
  · rw [← get?_eq_lookup, ← get?_eq_lookup, Dict.get?_pop, Dict.get?_pop, get?_sortDict, Dict.get?_set,
      get?_normalizeDict]
    by_cases hkey : schemaKey = key
    · simp [hkey]
    · rw [if_neg hkey, if_neg hkey, if_neg hkey]
      by_cases htitle : key = titleKey
      · simp [htitle]
      · simp [htitle, Function.comp_def]
  · exact kept_iff m.2 (schema.distinct m (List.mem_of_mem_filter hm))

/-- **Schemas of objects.** The result has no title, and a second run changes nothing. It differs from
the schema in nothing but the dialect, the order of keys and titles of schemas, exactly if the keys that
the code takes for titles are all keys of schemas. -/
theorem normalizes_iff (schema : Schema)
    (hroot : isText "object".toList (schema.toDict.get? typeKey) = true) :
    (∃ result, normalizeJsonSchema schema.toDict = .ok result ∧
      containsTitle false (.object result.entries) = false ∧
      normalizeJsonSchema result = .ok result ∧ NormalizedFrom schema.toDict result) ↔
    titlesAnnotate false .schema (.object (schema.toDict.pop schemaKey).entries) = true := by
  have hok := normalizeJsonSchema_eq_ok.2 ⟨hroot, rfl⟩
  constructor
  · rintro ⟨result, hresult, -, -, h⟩
    obtain rfl := Except.ok.inj (hok.symm.trans hresult)
    exact (normalizedFrom_iff schema).1 h
  · intro h
    exact ⟨_, hok, containsTitle_normalized _, normalizeJsonSchema_again hok,
      (normalizedFrom_iff schema).2 h⟩

/-! ### Two schemas -/

/-- A text with a generated title. -/
def textSchema (title : String) : Json :=
  .object [("title".toList, .str title.toList), ("type".toList, .str "string".toList)]

theorem distinct_textSchema (title : String) : Distinct (textSchema title) := by
  refine .object (show ["title".toList, "type".toList].Nodup by decide) ?_
  exact List.forall_mem_cons.2 ⟨.scalar rfl, List.forall_mem_singleton.2 (.scalar rfl)⟩

/-- A model with properties of the names `title` and `properties`. -/
def bookSchema : Schema where
  entries := [("title".toList, .str "Book".toList), ("type".toList, .str "object".toList),
    ("properties".toList, .object [("title".toList, textSchema "Title"),
      ("properties".toList, textSchema "Properties")])]
  nodup := by decide
  distinct := by
    have hproperties : ∀ m ∈ [("title".toList, textSchema "Title"),
        ("properties".toList, textSchema "Properties")], Distinct m.2 :=
      List.forall_mem_cons.2
        ⟨distinct_textSchema _, List.forall_mem_singleton.2 (distinct_textSchema _)⟩
    exact List.forall_mem_cons.2 ⟨.scalar rfl, List.forall_mem_cons.2
      ⟨.scalar rfl, List.forall_mem_singleton.2 (.object (by decide) hproperties)⟩⟩

theorem book_is_normalized : ∃ result, normalizeJsonSchema bookSchema.toDict = .ok result ∧
    containsTitle false (.object result.entries) = false ∧
    normalizeJsonSchema result = .ok result ∧ NormalizedFrom bookSchema.toDict result :=
  (normalizes_iff bookSchema (by decide)).2 (by decide)

/-- A model with a default value that has a key `title`. -/
def shelfSchema : Schema where
  entries := [("type".toList, .str "object".toList), ("properties".toList, .object
    [("first".toList, .object [("default".toList, .object [("title".toList, .str "Dune".toList)])])])]
  nodup := by decide
  distinct := by
    have hdefault : Distinct (.object [("title".toList, .str "Dune".toList)]) :=
      .object (List.nodup_singleton _) (List.forall_mem_singleton.2 (.scalar rfl))
    have hfirst : Distinct (.object [("default".toList, .object
        [("title".toList, .str "Dune".toList)])]) :=
      .object (List.nodup_singleton _) (List.forall_mem_singleton.2 hdefault)
    exact List.forall_mem_cons.2 ⟨.scalar rfl, List.forall_mem_singleton.2
      (.object (List.nodup_singleton _) (List.forall_mem_singleton.2 hfirst))⟩

/-- The default value is changed: its `title` is taken out. -/
theorem default_title_is_lost : ¬ ∃ result, normalizeJsonSchema shelfSchema.toDict = .ok result ∧
    containsTitle false (.object result.entries) = false ∧
    normalizeJsonSchema result = .ok result ∧ NormalizedFrom shelfSchema.toDict result := by
  rintro ⟨result, hresult, -, -, h⟩
  have hok := (@normalizeJsonSchema_eq_ok shelfSchema.toDict _).2 ⟨by decide, rfl⟩
  obtain rfl := Except.ok.inj (hok.symm.trans hresult)
  exact absurd ((normalizedFrom_iff shelfSchema).1 h) (by decide)

end GoffyHub.ToolSchema
