import GoffyOs.Lib.Dict
import GoffyOs.Python.JsonSize

/-!
# `json.loads`

The decoder of `json` for a text, with the choices that CPython makes: a key that comes again keeps its
place and takes the new value, control characters are errors inside of texts, `NaN` and the infinities are
numbers, and a number with a fraction or an exponent is a float, of which only the `repr` is known.
A text with half of a surrogate pair has no counterpart here.

* `loads_texts`: an object of plain texts reads back from what `json.dumps` writes of it.
-/

namespace Python

inductive LoadsError
  | jsonDecodeError
  /-- an integer with more digits than `int` takes -/
  | valueError
  /-- half of a surrogate pair, which no character is -/
  | surrogate
  deriving DecidableEq

def isJsonSpace (c : Char) : Bool := c = ' ' || c = '\t' || c = '\n' || c = '\r'

def skipSpace (s : Str) : Str := s.dropWhile isJsonSpace

/-! ### Texts -/

/-- Four hexadecimal digits. -/
def hex4 (s : Str) : Except LoadsError (ℕ × Str) :=
  match s with
  | a :: b :: c :: d :: rest =>
    match Positional.read? 16 ([a, b, c, d].map Char.toLower) with
    | some n => .ok (n, rest)
    | none => .error .jsonDecodeError
  | _ => .error .jsonDecodeError

/-- What follows `\u`. -/
def unicodeEscape (s : Str) : Except LoadsError (Char × Str) := do
  let (n, rest) ← hex4 s
  if 0xd800 ≤ n ∧ n ≤ 0xdbff then
    match rest with
    | '\\' :: 'u' :: t =>
      let (m, rest) ← hex4 t
      if 0xdc00 ≤ m ∧ m ≤ 0xdfff then
        return (Char.ofNat (0x10000 + (n - 0xd800) * 0x400 + (m - 0xdc00)), rest)
      else throw .surrogate
    | _ => throw .surrogate
  else if 0xdc00 ≤ n ∧ n ≤ 0xdfff then throw .surrogate
  else return (Char.ofNat n, rest)

/-- What follows a backslash. -/
def escape : Str → Except LoadsError (Char × Str)
  | '"' :: s => .ok ('"', s)
  | '\\' :: s => .ok ('\\', s)
  | '/' :: s => .ok ('/', s)
  | 'b' :: s => .ok (Char.ofNat 8, s)
  | 'f' :: s => .ok (Char.ofNat 12, s)
  | 'n' :: s => .ok ('\n', s)
  | 'r' :: s => .ok ('\r', s)
  | 't' :: s => .ok ('\t', s)
  | 'u' :: s => unicodeEscape s
  | _ => .error .jsonDecodeError

/-- A text after its opening quote, in at most `fuel` steps. -/
def scanStringAux : ℕ → Str → Except LoadsError (Str × Str)
  | 0, _ => .error .jsonDecodeError
  | _ + 1, [] => .error .jsonDecodeError
  | fuel + 1, c :: s =>
    if c = '"' then .ok ([], s)
    else if c = '\\' then do
      let (d, rest) ← escape s
      let (text, rest) ← scanStringAux fuel rest
      return (d :: text, rest)
    else if c.toNat < 0x20 then .error .jsonDecodeError
    else do
      let (text, rest) ← scanStringAux fuel s
      return (c :: text, rest)

/-- `scanstring`: each step takes a character of the text. -/
def scanString (s : Str) : Except LoadsError (Str × Str) := scanStringAux (s.length + 1) s

/-! ### Numbers -/

def isJsonDigit (c : Char) : Bool := '0' ≤ c && c ≤ '9'

/-- `(\.[0-9]+)?` at the beginning of a text. -/
def fraction : Str → Str
  | '.' :: s =>
    let digits := s.takeWhile isJsonDigit
    if digits = [] then [] else '.' :: digits
  | _ => []

/-- `([eE][-+]?[0-9]+)?` at the beginning of a text. -/
def exponent : Str → Str
  | c :: s =>
    if c = 'e' ∨ c = 'E' then
      let sign := (s.take 1).filter fun d => d = '-' ∨ d = '+'
      let digits := (s.drop sign.length).takeWhile isJsonDigit
      if digits = [] then [] else c :: (sign ++ digits)
    else []
  | [] => []

/-- `_match_number`. `float` is the `repr` of the float that a text reads as. -/
def scanNumber (float : Str → Str) (s : Str) : Except LoadsError (Json × Str) :=
  let sign := (s.take 1).filter (· = '-')
  let body := s.drop sign.length
  let digits := if body.head? = some '0' then ['0'] else body.takeWhile isJsonDigit
  let afterDigits := body.drop digits.length
  let decimals := fraction afterDigits
  let power := exponent (afterDigits.drop decimals.length)
  let rest := (afterDigits.drop decimals.length).drop power.length
  if digits = [] then .error .jsonDecodeError
  else if decimals = [] ∧ power = [] then
    match parseInt 10 (sign ++ digits) with
    | some n => .ok (.int n, rest)
    | none => .error .valueError
  else .ok (.float (float (sign ++ digits ++ decimals ++ power)), rest)

/-! ### Values -/

/-- A word and the value that it stands for. -/
def constants : List (Str × Json) :=
  [("null".toList, .null), ("true".toList, .bool true), ("false".toList, .bool false),
    ("NaN".toList, .float "nan".toList), ("Infinity".toList, .float "inf".toList),
    ("-Infinity".toList, .float "-inf".toList)]

mutual

/-- `scan_once`. -/
def scanOnce (float : Str → Str) : ℕ → Str → Except LoadsError (Json × Str)
  | 0, _ => .error .jsonDecodeError
  | fuel + 1, s =>
    match s with
    | '"' :: t => do
      let (text, rest) ← scanString t
      return (.str text, rest)
    | '{' :: t =>
      match skipSpace t with
      | '}' :: rest => .ok (.object [], rest)
      | rest => parseObject float fuel Dict.empty rest
    | '[' :: t =>
      match skipSpace t with
      | ']' :: rest => .ok (.array [], rest)
      | rest => parseArray float fuel [] rest
    | _ =>
      match constants.find? fun word => word.1.isPrefixOf s with
      | some (word, value) => .ok (value, s.drop word.length)
      | none => scanNumber float s

/-- The members of an object from a key on. -/
def parseObject (float : Str → Str) : ℕ → Dict Str Json → Str → Except LoadsError (Json × Str)
  | 0, _, _ => .error .jsonDecodeError
  | fuel + 1, members, s =>
    match s with
    | '"' :: t => do
      let (key, rest) ← scanString t
      match skipSpace rest with
      | ':' :: rest =>
        let (value, rest) ← scanOnce float fuel (skipSpace rest)
        match skipSpace rest with
        | '}' :: rest => return (.object (members.set key value).entries, rest)
        | ',' :: rest => parseObject float fuel (members.set key value) (skipSpace rest)
        | _ => throw .jsonDecodeError
      | _ => throw .jsonDecodeError
    | _ => .error .jsonDecodeError

/-- The items of an array from a value on. -/
def parseArray (float : Str → Str) : ℕ → List Json → Str → Except LoadsError (Json × Str)
  | 0, _, _ => .error .jsonDecodeError
  | fuel + 1, items, s => do
    let (value, rest) ← scanOnce float fuel s
    match skipSpace rest with
    | ']' :: rest => return (.array (items ++ [value]), rest)
    | ',' :: rest => parseArray float fuel (items ++ [value]) (skipSpace rest)
    | _ => throw .jsonDecodeError

end

/-- `json.loads`: each step of the decoder takes a character. -/
def loads (float : Str → Str) (s : Str) : Except LoadsError Json :=
  if s.head? = some (Char.ofNat 0xfeff) then .error .jsonDecodeError
  else do
    let (value, rest) ← scanOnce float (2 * s.length + 1) (skipSpace s)
    if skipSpace rest = [] then return value else throw .jsonDecodeError

/-! ### Objects of texts -/

/-- A character of a text, with `ensure_ascii`. -/
def escapeAscii (c : Char) : Str :=
  if c.toNat < 0x7f then escapeChar c
  else if c.toNat < 0x10000 then '\\' :: 'u' :: Positional.write 16 4 c.toNat
  else
    '\\' :: 'u' :: (Positional.write 16 4 (0xd800 + (c.toNat - 0x10000) / 0x400) ++
      '\\' :: 'u' :: Positional.write 16 4 (0xdc00 + (c.toNat - 0x10000) % 0x400))

/-- `json.dumps(payload, sort_keys=True, separators=(",", ":"))` of a dictionary of texts. -/
def dumpsTexts (payload : List (Str × Str)) : Str :=
  '{' :: (commaJoin ((sortMembers payload).map fun m =>
    '"' :: (m.1.flatMap escapeAscii ++ '"' :: ':' :: '"' :: (m.2.flatMap escapeAscii ++ ['"']))) ++
      ['}'])

/-- A text in quotes, without an escape. -/
def quoted (s : Str) : Str := '"' :: (s ++ ['"'])

/-- The text of an object of texts. -/
def objectOfTexts (texts : List (Str × Str)) : Str :=
  '{' :: (commaJoin (texts.map fun m => quoted m.1 ++ ':' :: quoted m.2) ++ ['}'])

section Plain

variable {float : Str → Str} {text key value rest : Str}

theorem scanStringAux_plain (hplain : ∀ c ∈ text, isPlain c = true) :
    ∀ fuel, text.length < fuel → scanStringAux fuel (text ++ '"' :: rest) = .ok (text, rest) := by
  induction text with
  | nil =>
    intro fuel hfuel
    obtain ⟨fuel, rfl⟩ := Nat.exists_eq_add_of_lt hfuel
    rfl
  | cons c text ih =>
    intro fuel hfuel
    obtain ⟨hc, htext⟩ := List.forall_mem_cons.1 hplain
    cases fuel with
    | zero => cases hfuel
    | succ fuel =>
      simp only [isPlain, Bool.and_eq_true, decide_eq_true_eq] at hc
      obtain ⟨⟨hprintable, hquote⟩, hbackslash⟩ := hc
      rw [List.cons_append, scanStringAux, if_neg hquote, if_neg hbackslash,
        if_neg (Nat.not_lt.2 hprintable), ih htext fuel (Nat.lt_of_succ_lt_succ hfuel)]
      rfl

theorem scanString_plain (hplain : ∀ c ∈ text, isPlain c = true) :
    scanString (text ++ '"' :: rest) = .ok (text, rest) :=
  scanStringAux_plain hplain _ (by simp only [List.length_append]; omega)

theorem scanOnce_quoted (hplain : ∀ c ∈ value, isPlain c = true) (fuel : ℕ) :
    scanOnce float (fuel + 1) (quoted value ++ rest) = .ok (.str value, rest) := by
  rw [quoted, List.cons_append, List.append_assoc, scanOnce]
  simp only [List.cons_append, List.nil_append]
  rw [scanString_plain hplain]
  rfl

/-- A member of plain texts, up to what follows it. -/
theorem parseObject_member (hkey : ∀ c ∈ key, isPlain c = true)
    (hvalue : ∀ c ∈ value, isPlain c = true) (fuel : ℕ) (members : Dict Str Json) :
    parseObject float (fuel + 2) members (quoted key ++ ':' :: (quoted value ++ rest)) =
      match skipSpace rest with
      | '}' :: rest => .ok (.object (members.set key (.str value)).entries, rest)
      | ',' :: rest =>
        parseObject float (fuel + 1) (members.set key (.str value)) (skipSpace rest)
      | _ => .error .jsonDecodeError := by
  have hskip : skipSpace (quoted value ++ rest) = quoted value ++ rest := rfl
  have hcolon : skipSpace (':' :: (quoted value ++ rest)) = ':' :: (quoted value ++ rest) := rfl
  rw [quoted, List.cons_append, List.append_assoc, parseObject]
  simp only [List.cons_append, List.nil_append, scanString_plain hkey, bind, Except.bind, hcolon,
    hskip, scanOnce_quoted hvalue]
  rfl

theorem commaJoin_quoted (key s : Str) (l : List Str) :
    ∃ t, commaJoin ((quoted key ++ s) :: l) = '"' :: t := by
  cases l with
  | nil => exact ⟨_, rfl⟩
  | cons s' l => exact ⟨_, rfl⟩

/-- The members of an object of plain texts. -/
theorem parseObject_texts : ∀ (texts : List (Str × Str)) (fuel : ℕ) (members : Dict Str Json),
    texts ≠ [] → texts.length < fuel →
    (∀ m ∈ texts, (∀ c ∈ m.1, isPlain c = true) ∧ ∀ c ∈ m.2, isPlain c = true) →
    parseObject float fuel members
        (commaJoin (texts.map fun m => quoted m.1 ++ ':' :: quoted m.2) ++ '}' :: rest) =
      .ok (.object (texts.foldl (fun d m => d.set m.1 (.str m.2)) members).entries, rest)
  | [m], fuel, members, _, hfuel, hplain => by
    obtain ⟨hkey, hvalue⟩ := hplain m List.mem_cons_self
    obtain ⟨fuel, rfl⟩ := Nat.exists_eq_add_of_lt hfuel
    have h := @parseObject_member float m.1 m.2 ('}' :: rest) hkey hvalue fuel members
    simp only [List.map_cons, List.map_nil, commaJoin, List.append_assoc, List.cons_append]
    rw [show [m].length + fuel + 1 = fuel + 2 by simp; omega, h]
    rfl
  | m :: m' :: texts, fuel, members, _, hfuel, hplain => by
    obtain ⟨hkey, hvalue⟩ := hplain m List.mem_cons_self
    obtain ⟨fuel, rfl⟩ : ∃ n, fuel = n + 2 := ⟨fuel - 2, by simp at hfuel; omega⟩
    have ih := parseObject_texts (m' :: texts) (fuel + 1) (members.set m.1 (.str m.2)) (by simp)
      (by simp at hfuel ⊢; omega) fun n hn => hplain n (List.mem_cons_of_mem _ hn)
    simp only [List.map_cons, commaJoin, List.append_assoc, List.cons_append] at ih ⊢
    obtain ⟨t, ht⟩ := commaJoin_quoted m'.1 (':' :: quoted m'.2)
      (texts.map fun m => quoted m.1 ++ ':' :: quoted m.2)
    rw [parseObject_member hkey hvalue fuel members]
    rw [ht] at ih ⊢
    exact ih

theorem length_le_commaJoin (l : List Str) (h : ∀ s ∈ l, s ≠ []) : l.length ≤ (commaJoin l).length := by
  induction l with
  | nil => exact Nat.zero_le _
  | cons s l ih =>
    obtain ⟨hs, hl⟩ := List.forall_mem_cons.1 h
    have hpos := List.length_pos_iff.2 hs
    cases l with
    | nil => exact hpos
    | cons t l =>
      have := ih hl
      simp only [commaJoin, List.length_append, List.length_cons] at this ⊢
      omega

/-- **An object of plain texts** reads back, also with a line feed at the end. -/
theorem loads_texts {texts : List (Str × Str)} (hne : texts ≠ [])
    (hplain : ∀ m ∈ texts, (∀ c ∈ m.1, isPlain c = true) ∧ ∀ c ∈ m.2, isPlain c = true) :
    loads float (objectOfTexts texts ++ ['\n']) =
      .ok (.object (texts.foldl (fun d m => d.set m.1 (.str m.2)) Dict.empty).entries) := by
  obtain ⟨m, texts, rfl⟩ := List.exists_cons_of_ne_nil hne
  have hlength : (m :: texts).length < 2 * (objectOfTexts (m :: texts) ++ ['\n']).length := by
    have := length_le_commaJoin ((m :: texts).map fun m => quoted m.1 ++ ':' :: quoted m.2)
      (List.forall_mem_map.2 fun _ _ => List.cons_ne_nil _ _)
    simp only [objectOfTexts, List.length_append, List.length_cons, List.length_map] at this ⊢
    omega
  have hmembers := @parseObject_texts float ['\n'] (m :: texts) _ Dict.empty hne hlength hplain
  obtain ⟨t, ht⟩ := commaJoin_quoted m.1 (':' :: quoted m.2)
    (texts.map fun m => quoted m.1 ++ ':' :: quoted m.2)
  have hskip : skipSpace (objectOfTexts (m :: texts) ++ ['\n']) =
      objectOfTexts (m :: texts) ++ ['\n'] := rfl
  rw [loads, if_neg (by simp [objectOfTexts]), hskip]
  generalize hfuel : 2 * (objectOfTexts (m :: texts) ++ ['\n']).length = fuel at hmembers ⊢
  rw [objectOfTexts, List.cons_append, List.append_assoc, scanOnce]
  simp only [List.map_cons] at hmembers ⊢
  rw [ht] at hmembers ⊢
  have hquote : skipSpace ('"' :: t ++ ['}'] ++ ['\n']) = '"' :: (t ++ ['}', '\n']) := by
    simp [skipSpace, isJsonSpace]
  simp only [List.cons_append, List.append_assoc, List.nil_append] at hmembers hquote ⊢
  rw [hquote]
  show (parseObject float fuel Dict.empty ('"' :: (t ++ ['}', '\n'])) >>= _) = _
  rw [hmembers]
  rfl

theorem of_mem_commaJoin {P : Char → Prop} (hcomma : P ',') {l : List Str}
    (h : ∀ s ∈ l, ∀ c ∈ s, P c) : ∀ c ∈ commaJoin l, P c := by
  induction l with
  | nil => exact fun c hc => absurd hc List.not_mem_nil
  | cons s l ih =>
    obtain ⟨hs, hl⟩ := List.forall_mem_cons.1 h
    cases l with
    | nil => exact hs
    | cons t l =>
      intro c hc
      rcases List.mem_append.1 hc with hc | hc
      · exact hs c hc
      · rcases List.mem_cons.1 hc with rfl | hc
        · exact hcomma
        · exact ih hl c hc

/-- What holds of the punctuation and in the texts holds in the object. -/
theorem of_mem_objectOfTexts {P : Char → Prop} (hmarks : ∀ c ∈ ['{', '}', '"', ':', ','], P c)
    {texts : List (Str × Str)} (h : ∀ m ∈ texts, (∀ c ∈ m.1, P c) ∧ ∀ c ∈ m.2, P c) :
    ∀ c ∈ objectOfTexts texts, P c := by
  have hquoted : ∀ s : Str, (∀ c ∈ s, P c) → ∀ c ∈ quoted s, P c := by
    intro s hs c hc
    simp only [quoted, List.mem_cons, List.mem_append, List.not_mem_nil, or_false] at hc
    rcases hc with rfl | hc | rfl
    · exact hmarks _ (by decide)
    · exact hs c hc
    · exact hmarks _ (by decide)
  have hmembers : ∀ s ∈ texts.map fun m => quoted m.1 ++ ':' :: quoted m.2, ∀ c ∈ s, P c := by
    refine List.forall_mem_map.2 fun m hm c hc => ?_
    rcases List.mem_append.1 hc with hc | hc
    · exact hquoted _ (h m hm).1 c hc
    · rcases List.mem_cons.1 hc with rfl | hc
      · exact hmarks _ (by decide)
      · exact hquoted _ (h m hm).2 c hc
  intro c hc
  simp only [objectOfTexts, List.mem_cons, List.mem_append, List.not_mem_nil, or_false] at hc
  rcases hc with rfl | hc | rfl
  · exact hmarks _ (by decide)
  · exact of_mem_commaJoin (hmarks _ (by decide)) hmembers c hc
  · exact hmarks _ (by decide)

/-- Keys that are new and distinct come in their order. -/
theorem entries_foldl_set : ∀ (texts : List (Str × Str)) (d : Dict Str Json),
    (texts.map Prod.fst).Nodup → (∀ m ∈ texts, d.get? m.1 = none) →
    (texts.foldl (fun d m => d.set m.1 (.str m.2)) d).entries =
      d.entries ++ texts.map fun m => (m.1, .str m.2)
  | [], d, _, _ => by simp
  | m :: texts, d, hkeys, hnew => by
    obtain ⟨hm, htexts⟩ := List.forall_mem_cons.1 hnew
    rw [List.map_cons, List.nodup_cons] at hkeys
    rw [List.foldl_cons, entries_foldl_set texts _ hkeys.2 fun n hn => ?_, Dict.entries_set_of_none hm,
      List.append_assoc]
    · rfl
    · have hne : m.1 ≠ n.1 := fun heq => hkeys.1 (heq ▸ List.mem_map_of_mem hn)
      rw [Dict.get?_set, if_neg hne]
      exact htexts n hn

/-- A text of printable ASCII without quotes and backslashes. -/
def Printable (s : Str) : Prop := ∀ c ∈ s, isPlain c = true ∧ c.toNat < 0x7f

theorem flatMap_escapeAscii {s : Str} (hs : Printable s) : s.flatMap escapeAscii = s := by
  induction s with
  | nil => rfl
  | cons c s ih =>
    obtain ⟨⟨hplain, hascii⟩, hrest⟩ := List.forall_mem_cons.1 hs
    rw [List.flatMap_cons, ih hrest, escapeAscii, if_pos hascii, escapeChar_of_isPlain hplain]
    rfl

theorem dumpsTexts_eq {payload : List (Str × Str)}
    (hplain : ∀ m ∈ payload, Printable m.1 ∧ Printable m.2) :
    dumpsTexts payload = objectOfTexts (sortMembers payload) := by
  rw [dumpsTexts, objectOfTexts]
  congr 3
  refine List.map_congr_left fun m hm => ?_
  obtain ⟨hkey, hvalue⟩ := hplain m ((List.perm_insertionSort _ payload).mem_iff.1 hm)
  rw [flatMap_escapeAscii hkey, flatMap_escapeAscii hvalue, quoted, quoted, List.cons_append,
    List.append_assoc]
  rfl

/-- **A dictionary of printable texts** reads back in the order of its keys. -/
theorem loads_dumpsTexts {payload : List (Str × Str)} (hne : payload ≠ [])
    (hplain : ∀ m ∈ payload, Printable m.1 ∧ Printable m.2)
    (hkeys : (payload.map Prod.fst).Nodup) :
    loads float (dumpsTexts payload ++ ['\n']) =
      .ok (.object ((sortMembers payload).map fun m => (m.1, .str m.2))) := by
  have hperm : (sortMembers payload).Perm payload := List.perm_insertionSort _ payload
  have hsorted : ∀ m ∈ sortMembers payload,
      (∀ c ∈ m.1, isPlain c = true) ∧ ∀ c ∈ m.2, isPlain c = true := by
    intro m hm
    obtain ⟨hkey, hvalue⟩ := hplain m (hperm.mem_iff.1 hm)
    exact ⟨fun c hc => (hkey c hc).1, fun c hc => (hvalue c hc).1⟩
  rw [dumpsTexts_eq hplain, loads_texts (fun h => hne ?_) hsorted,
    entries_foldl_set _ _ ((hperm.map Prod.fst).nodup_iff.2 hkeys) fun _ _ => Dict.get?_empty]
  · rfl
  · exact List.length_eq_zero_iff.1 (hperm.length_eq.symm.trans (by rw [h]; rfl))

end Plain

end Python
