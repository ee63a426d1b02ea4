import GoffyOs.Lib.Trimming
import GoffyOs.Python.Text
import Mathlib.Data.List.DropRight
import Mathlib.Data.List.TakeWhile

/-!
# Text: the lines and the words of a `str`

How Python takes a text apart: `splitlines`, `split()` and `split(maxsplit=k)` at white space, and
`removePrefix`. The lines of a text are read back by `splitlines_unlines`, and words that are separated
by single spaces by `splitMax_unwords`.
-/

namespace Python

/-! ### Lines -/

/-- The characters at which `splitlines` ends a line. -/
def isLineBreak (c : Char) : Bool :=
  let n := c.toNat
  (0x0a ≤ n && n ≤ 0x0d) || (0x1c ≤ n && n ≤ 0x1e) || n == 0x85 || n == 0x2028 || n == 0x2029

/-- `str.splitlines()`. -/
def splitlines : Str → List Str
  | [] => []
  | '\r' :: '\n' :: s => [] :: splitlines s
  | c :: s =>
    if isLineBreak c then [] :: splitlines s
    else match splitlines s with
      | [] => [[c]]
      | line :: lines => (c :: line) :: lines

/-- Lines that end with a line feed each. -/
def unlines (lines : List Str) : Str := lines.flatMap (· ++ ['\n'])

theorem splitlines_newline (s : Str) : splitlines ('\n' :: s) = [] :: splitlines s := by
  rw [splitlines]
  · rfl
  · intro t h
    cases h

theorem splitlines_cons {c : Char} {s line : Str} {lines : List Str} (hc : isLineBreak c = false)
    (hs : splitlines s = line :: lines) : splitlines (c :: s) = (c :: line) :: lines := by
  rw [splitlines]
  · rw [hc, hs]
    rfl
  · rintro t rfl
    cases hc

theorem splitlines_append {line : Str} (hline : ∀ c ∈ line, isLineBreak c = false) (s : Str) :
    splitlines (line ++ '\n' :: s) = line :: splitlines s := by
  induction line with
  | nil => exact splitlines_newline s
  | cons c line ih =>
    have hrest := ih fun d hd => hline d (List.mem_cons_of_mem _ hd)
    exact splitlines_cons (hline c List.mem_cons_self) hrest

theorem splitlines_break {c : Char} (hc : isLineBreak c = true) (hcr : c ≠ '\r') (s : Str) :
    splitlines (c :: s) = [] :: splitlines s := by
  rw [splitlines]
  · rw [if_pos hc]
  · rintro t rfl
    exact absurd rfl hcr

/-- The lines of a text before a line feed: what comes before its first line break, and lines of the
rest. -/
theorem exists_splitlines {t : Str} (ht : ∀ c ∈ t, c ≠ '\r') : ∃ rest,
    (∀ s, splitlines (t ++ '\n' :: s) = t.takeWhile (!isLineBreak ·) :: (rest ++ splitlines s)) ∧
      ∀ line ∈ rest, ∀ c ∈ line, c ∈ t.dropWhile (!isLineBreak ·) := by
  induction t with
  | nil => exact ⟨[], fun s => splitlines_newline s, fun _ h => absurd h List.not_mem_nil⟩
  | cons c t ih =>
    obtain ⟨hc, ht⟩ := List.forall_mem_cons.1 ht
    obtain ⟨rest, hlines, hrest⟩ := ih ht
    cases hbreak : isLineBreak c with
    | true =>
      have htake : (c :: t).takeWhile (!isLineBreak ·) = [] := by simp [hbreak]
      have hdrop : (c :: t).dropWhile (!isLineBreak ·) = c :: t := by simp [hbreak]
      refine ⟨t.takeWhile (!isLineBreak ·) :: rest, fun s => ?_, ?_⟩
      · rw [List.cons_append, splitlines_break hbreak hc, hlines, htake, List.cons_append]
      · rw [hdrop]
        refine List.forall_mem_cons.2 ⟨fun d hd => ?_, fun line hline d hd => ?_⟩
        · exact List.mem_cons_of_mem c ((List.takeWhile_sublist _).subset hd)
        · exact List.mem_cons_of_mem c ((List.dropWhile_sublist _).subset (hrest line hline d hd))
    | false =>
      have htake : (c :: t).takeWhile (!isLineBreak ·) = c :: t.takeWhile (!isLineBreak ·) := by
        simp [hbreak]
      have hdrop : (c :: t).dropWhile (!isLineBreak ·) = t.dropWhile (!isLineBreak ·) := by
        simp [hbreak]
      refine ⟨rest, fun s => ?_, ?_⟩
      · rw [List.cons_append, splitlines_cons hbreak (hlines s), htake]
      · rw [hdrop]
        exact hrest

/-- Lines read back. -/
theorem splitlines_unlines {lines : List Str}
    (h : ∀ line ∈ lines, ∀ c ∈ line, isLineBreak c = false) : splitlines (unlines lines) = lines := by
  induction lines with
  | nil => rfl
  | cons line lines ih =>
    have hrest := ih fun l hl => h l (List.mem_cons_of_mem _ hl)
    rw [unlines, List.flatMap_cons, List.append_assoc, List.singleton_append,
      splitlines_append (h line List.mem_cons_self)]
    exact congrArg (line :: ·) hrest

/-- No line has a line break in it. -/
theorem isLineBreak_of_mem_splitlines {s line : Str} (h : line ∈ splitlines s) :
    ∀ c ∈ line, isLineBreak c = false := by
  induction s using splitlines.induct generalizing line with
  | case1 => exact absurd h List.not_mem_nil
  | case2 s ih =>
    rw [splitlines] at h
    rcases List.mem_cons.1 h with rfl | h
    · exact fun c hc => absurd hc List.not_mem_nil
    · exact ih h
  | case3 c s hcr hbreak ih =>
    rw [splitlines.eq_3 _ _ hcr, if_pos hbreak] at h
    rcases List.mem_cons.1 h with rfl | h
    · exact fun c hc => absurd hc List.not_mem_nil
    · exact ih h
  | case4 c s hcr hbreak hnil ih =>
    rw [splitlines.eq_3 _ _ hcr, if_neg hbreak, hnil] at h
    rw [List.mem_singleton.1 h]
    intro d hd
    rw [List.mem_singleton.1 hd]
    exact Bool.eq_false_iff.2 hbreak
  | case5 c s hcr hbreak first rest hsplit ih =>
    rw [splitlines.eq_3 _ _ hcr, if_neg hbreak, hsplit] at h
    rcases List.mem_cons.1 h with rfl | h
    · refine List.forall_mem_cons.2 ⟨Bool.eq_false_iff.2 hbreak, ?_⟩
      exact ih (hsplit ▸ List.mem_cons_self)
    · exact ih (hsplit ▸ List.mem_cons_of_mem _ h)

/-- `"\n".join(lines)`. -/
def joinLines : List Str → Str
  | [] => []
  | [line] => line
  | line :: next :: lines => line ++ '\n' :: joinLines (next :: lines)

theorem splitlines_of_no_break {line : Str} (hne : line ≠ [])
    (hline : ∀ c ∈ line, isLineBreak c = false) : splitlines line = [line] := by
  induction line with
  | nil => exact absurd rfl hne
  | cons c line ih =>
    obtain ⟨hc, hline⟩ := List.forall_mem_cons.1 hline
    by_cases hnil : line = []
    · subst hnil
      rw [splitlines]
      · rw [hc]
        rfl
      · rintro t rfl
        cases hc
    · exact splitlines_cons hc (ih hnil hline)

/-- Lines that are joined are read back, but for an empty one at the end. -/
theorem filterMap_splitlines_joinLines {β : Type} {f : Str → Option β} (hf : f [] = none)
    {lines : List Str} (h : ∀ line ∈ lines, ∀ c ∈ line, isLineBreak c = false) :
    (splitlines (joinLines lines)).filterMap f = lines.filterMap f := by
  induction lines with
  | nil => rfl
  | cons line lines ih =>
    obtain ⟨hline, hlines⟩ := List.forall_mem_cons.1 h
    cases lines with
    | nil =>
      rw [joinLines]
      by_cases hnil : line = []
      · subst hnil
        rw [List.filterMap_cons_none hf]
        rfl
      · rw [splitlines_of_no_break hnil hline]
    | cons next lines =>
      rw [joinLines, splitlines_append hline, List.filterMap_cons, List.filterMap_cons, ih hlines]

/-! ### Words -/

/-- `str.split(maxsplit=k)`: words separated by white space; the rest after `k` words is kept, without
the white space before it. -/
def splitMax : ℕ → Str → List Str
  | 0, s => if s.dropWhile isSpace = [] then [] else [s.dropWhile isSpace]
  | k + 1, s =>
    if s.dropWhile isSpace = [] then []
    else (s.dropWhile isSpace).takeWhile (!isSpace ·) ::
      splitMax k ((s.dropWhile isSpace).dropWhile (!isSpace ·))

/-- `str.split()`: a text has no more words than characters. -/
def split (s : Str) : List Str := splitMax s.length s

/-- A non-empty text without white space. -/
def IsWord (w : Str) : Prop := w ≠ [] ∧ ∀ c ∈ w, isSpace c = false

instance (w : Str) : Decidable (IsWord w) := @instDecidableAnd _ _ _ (List.decidableBAll _ w)

/-- Words with a space after each. -/
def unwords (words : List Str) : Str := words.flatMap (· ++ [' '])

theorem splitMax_space (k : ℕ) (s : Str) : splitMax k (' ' :: s) = splitMax k s := by
  have hdrop : (' ' :: s).dropWhile isSpace = s.dropWhile isSpace :=
    List.dropWhile_cons_of_pos (by decide)
  cases k with
  | zero => rw [splitMax, splitMax, hdrop]
  | succ k => rw [splitMax, splitMax, hdrop]

theorem IsWord.dropWhile {w : Str} (hw : IsWord w) (s : Str) :
    (w ++ s).dropWhile isSpace = w ++ s := by
  obtain ⟨hne, hspace⟩ := hw
  cases w with
  | nil => exact absurd rfl hne
  | cons c w =>
    rw [List.cons_append, List.dropWhile_cons_of_neg]
    simp [hspace c List.mem_cons_self]

theorem splitMax_word {w : Str} (hw : IsWord w) (k : ℕ) (s : Str) :
    splitMax (k + 1) (w ++ ' ' :: s) = w :: splitMax k s := by
  have hall : ∀ c ∈ w, (!isSpace c) = true := fun c hc => by rw [hw.2 c hc]; rfl
  have hne : w ++ ' ' :: s ≠ [] := by simp
  rw [splitMax, hw.dropWhile, if_neg hne, List.takeWhile_append_of_pos hall,
    List.dropWhile_append_of_pos hall, List.takeWhile_cons_of_neg (by decide),
    List.dropWhile_cons_of_neg (by decide), List.append_nil, splitMax_space]

/-- The last word. -/
theorem splitMax_last {w : Str} (hw : IsWord w) (k : ℕ) : splitMax k w = [w] := by
  have hdrop : w.dropWhile isSpace = w := by simpa using hw.dropWhile []
  have hall : ∀ c ∈ w, (!isSpace c) = true := fun c hc => by rw [hw.2 c hc]; rfl
  cases k with
  | zero => rw [splitMax, hdrop, if_neg hw.1]
  | succ k =>
    have htake : w.takeWhile (!isSpace ·) = w := List.takeWhile_eq_self_iff.2 hall
    have hrest : w.dropWhile (!isSpace ·) = [] := List.dropWhile_eq_nil_iff.2 hall
    have hnil : splitMax k [] = [] := by cases k <;> rfl
    rw [splitMax, hdrop, if_neg hw.1, htake, hrest, hnil]

/-- Words read back, up to as many as are asked for. -/
theorem splitMax_unwords {words : List Str} (h : ∀ w ∈ words, IsWord w) (k : ℕ) (s : Str) :
    splitMax (words.length + k) (unwords words ++ s) = words ++ splitMax k s := by
  induction words with
  | nil => simp [unwords]
  | cons w words ih =>
    have hrest := ih fun v hv => h v (List.mem_cons_of_mem _ hv)
    rw [unwords, List.flatMap_cons, List.append_assoc, List.append_assoc, List.singleton_append,
      List.length_cons, Nat.add_right_comm, splitMax_word (h w List.mem_cons_self)]
    exact congrArg (w :: ·) hrest

/-! ### The words of a text -/

section Split

variable {w s : Str} {k : ℕ}

theorem dropWhile_takeWhile (s : Str) :
    (s.dropWhile isSpace).takeWhile (!isSpace ·) ++ (s.dropWhile isSpace).dropWhile (!isSpace ·) =
      s.dropWhile isSpace := List.takeWhile_append_dropWhile

/-- A text that is not blank starts with a word after its white space. -/
theorem isWord_takeWhile (hs : s.dropWhile isSpace ≠ []) :
    IsWord ((s.dropWhile isSpace).takeWhile (!isSpace ·)) := by
  refine ⟨?_, fun c hc => by simpa using List.mem_takeWhile_imp hc⟩
  have hhead := List.head?_dropWhile_not isSpace s
  obtain ⟨c, t, ht⟩ := List.exists_cons_of_ne_nil hs
  rw [ht] at hhead ⊢
  have hc : isSpace c = false := by simpa using hhead
  simp [hc]

/-- A word has characters of the text. -/
theorem mem_of_mem_splitMax (hw : w ∈ splitMax k s) : ∀ c ∈ w, c ∈ s := by
  induction k generalizing s with
  | zero =>
    rw [splitMax] at hw
    split at hw
    · exact absurd hw List.not_mem_nil
    · rw [List.mem_singleton.1 hw]
      exact fun c hc => (List.dropWhile_sublist _).subset hc
  | succ k ih =>
    rw [splitMax] at hw
    split at hw
    · exact absurd hw List.not_mem_nil
    · intro c hc
      refine (List.dropWhile_sublist isSpace).subset ?_
      rcases List.mem_cons.1 hw with rfl | hw
      · exact (List.takeWhile_sublist _).subset hc
      · exact (List.dropWhile_sublist _).subset (ih hw c hc)

/-- No part starts with white space. -/
theorem dropWhile_of_mem_splitMax (hw : w ∈ splitMax k s) : w.dropWhile isSpace = w := by
  induction k generalizing s with
  | zero =>
    rw [splitMax] at hw
    split at hw
    · exact absurd hw List.not_mem_nil
    · rw [List.mem_singleton.1 hw, List.dropWhile_idempotent]
  | succ k ih =>
    rw [splitMax] at hw
    split at hw
    · exact absurd hw List.not_mem_nil
    case isFalse hne =>
      rcases List.mem_cons.1 hw with rfl | hw
      · have hdrop := (isWord_takeWhile hne).dropWhile []
        rwa [List.append_nil] at hdrop
      · exact ih hw

/-- With enough splits, all the parts are words. -/
theorem isWord_of_mem_splitMax (hk : s.length ≤ k) (hw : w ∈ splitMax k s) : IsWord w := by
  induction k generalizing s with
  | zero =>
    rw [splitMax, List.length_eq_zero_iff.1 (Nat.le_zero.1 hk)] at hw
    exact absurd hw List.not_mem_nil
  | succ k ih =>
    rw [splitMax] at hw
    split at hw
    · exact absurd hw List.not_mem_nil
    case isFalse hne =>
      have hword := isWord_takeWhile hne
      rcases List.mem_cons.1 hw with rfl | hw
      · exact hword
      · refine ih ?_ hw
        have hlength := congrArg List.length (dropWhile_takeWhile s)
        have hpos := List.length_pos_iff.2 hword.1
        have hdrop := (List.dropWhile_sublist isSpace (l := s)).length_le
        rw [List.length_append] at hlength
        omega

/-- `" ".join(words)`. -/
def joinWords : List Str → Str
  | [] => []
  | [w] => w
  | w :: v :: words => w ++ ' ' :: joinWords (v :: words)

theorem joinWords_cons {words : List Str} (hne : words ≠ []) :
    joinWords (w :: words) = w ++ ' ' :: joinWords words := by
  obtain ⟨v, words, rfl⟩ := List.exists_cons_of_ne_nil hne
  rfl

theorem mem_joinWords {words : List Str} {c : Char} (hc : c ∈ joinWords words) :
    c = ' ' ∨ ∃ w ∈ words, c ∈ w := by
  induction words with
  | nil => exact absurd hc List.not_mem_nil
  | cons w words ih =>
    rcases eq_or_ne words [] with rfl | hne
    · exact Or.inr ⟨w, List.mem_cons_self, hc⟩
    rw [joinWords_cons hne] at hc
    rcases List.mem_append.1 hc with hc | hc
    · exact Or.inr ⟨w, List.mem_cons_self, hc⟩
    · rcases List.mem_cons.1 hc with rfl | hc
      · exact Or.inl rfl
      · rcases ih hc with hspace | ⟨v, hv, hc⟩
        · exact Or.inl hspace
        · exact Or.inr ⟨v, List.mem_cons_of_mem _ hv, hc⟩

/-- Joining the words of a text makes it no longer: the white space before a word was a character at
least. -/
theorem length_joinWords_splitMax : (joinWords (splitMax k s)).length ≤ (s.dropWhile isSpace).length := by
  induction k generalizing s with
  | zero =>
    rw [splitMax]
    split
    · exact Nat.zero_le _
    · exact le_rfl
  | succ k ih =>
    rw [splitMax]
    split
    · exact Nat.zero_le _
    case isFalse hne =>
      have hlength := congrArg List.length (dropWhile_takeWhile s)
      rw [List.length_append] at hlength
      generalize (s.dropWhile isSpace).takeWhile (!isSpace ·) = w at hlength
      have hrest := ih (s := (s.dropWhile isSpace).dropWhile (!isSpace ·))
      have hhead := List.head?_dropWhile_not (!isSpace ·) (s.dropWhile isSpace)
      generalize (s.dropWhile isSpace).dropWhile (!isSpace ·) = rest at hlength hrest hhead
      rcases eq_or_ne (splitMax k rest) [] with hnil | hcons
      · rw [hnil]
        show w.length ≤ _
        omega
      · rw [joinWords_cons hcons, List.length_append, List.length_cons]
        cases rest with
        | nil =>
          have hnil : splitMax k [] = [] := by cases k <;> rfl
          exact absurd hnil hcons
        | cons c rest =>
          have hc : isSpace c = true := by simpa using hhead
          rw [List.dropWhile_cons_of_pos hc] at hrest
          have hdrop := (List.dropWhile_sublist isSpace (l := rest)).length_le
          rw [List.length_cons] at hlength
          omega

end Split

/-! ### Joined words -/

section JoinWords

variable {words : List Str} {k : ℕ}

/-- Joined words read back. -/
theorem splitMax_joinWords (h : ∀ w ∈ words, IsWord w) (hk : words.length ≤ k + 1) :
    splitMax k (joinWords words) = words := by
  induction words generalizing k with
  | nil => cases k <;> rfl
  | cons w words ih =>
    obtain ⟨hw, hwords⟩ := List.forall_mem_cons.1 h
    rcases eq_or_ne words [] with rfl | hne
    · exact splitMax_last hw k
    · have hpos := List.length_pos_iff.2 hne
      rw [List.length_cons] at hk
      obtain ⟨k, rfl⟩ := Nat.exists_eq_succ_of_ne_zero (by omega : k ≠ 0)
      rw [joinWords_cons hne, splitMax_word hw, ih hwords (by omega)]

theorem length_le_joinWords (h : ∀ w ∈ words, IsWord w) : words.length ≤ (joinWords words).length := by
  induction words with
  | nil => exact Nat.zero_le _
  | cons w words ih =>
    obtain ⟨hw, hwords⟩ := List.forall_mem_cons.1 h
    have hpos := List.length_pos_iff.2 hw.1
    rcases eq_or_ne words [] with rfl | hne
    · exact hpos
    · have hrest := ih hwords
      rw [joinWords_cons hne, List.length_append, List.length_cons, List.length_cons]
      omega

theorem split_joinWords (h : ∀ w ∈ words, IsWord w) : split (joinWords words) = words :=
  splitMax_joinWords h (Nat.le_succ_of_le (length_le_joinWords h))

/-- Joined words start with no space. -/
theorem head?_joinWords (h : ∀ w ∈ words, IsWord w) {c : Char} (hc : (joinWords words).head? = some c) :
    isSpace c = false := by
  cases words with
  | nil => cases hc
  | cons w words =>
    obtain ⟨hne, hspace⟩ := h w List.mem_cons_self
    obtain ⟨d, t, rfl⟩ := List.exists_cons_of_ne_nil hne
    have hhead : (joinWords ((d :: t) :: words)).head? = some d := by
      rcases eq_or_ne words [] with rfl | hcons
      · rfl
      · rw [joinWords_cons hcons]
        rfl
    obtain rfl : d = c := Option.some.inj (hhead.symm.trans hc)
    exact hspace d List.mem_cons_self

/-- They end with no space. -/
theorem getLast?_joinWords (h : ∀ w ∈ words, IsWord w) {c : Char}
    (hc : (joinWords words).getLast? = some c) : isSpace c = false := by
  induction words with
  | nil => cases hc
  | cons w words ih =>
    obtain ⟨hw, hwords⟩ := List.forall_mem_cons.1 h
    rcases eq_or_ne words [] with rfl | hne
    · exact hw.2 c (List.mem_of_mem_getLast? hc)
    · have hrest : joinWords words ≠ [] := by
        have hlength := length_le_joinWords hwords
        have hpos := List.length_pos_iff.2 hne
        exact List.length_pos_iff.1 (Nat.lt_of_lt_of_le hpos hlength)
      obtain ⟨d, hd⟩ := Option.isSome_iff_exists.1 (List.getLast?_isSome.2 hrest)
      rw [joinWords_cons hne, List.getLast?_append, List.getLast?_cons, hd] at hc
      exact ih hwords (hd.trans hc)

theorem strip_joinWords (h : ∀ w ∈ words, IsWord w) : strip (joinWords words) = joinWords words :=
  Trimming.trimmed_of_ends (fun _ hc => head?_joinWords h hc) fun _ hc => getLast?_joinWords h hc

/-- Characters that are no space are put to the last word. -/
theorem exists_joinWords_append (h : ∀ w ∈ words, IsWord w) (hne : words ≠ []) {t : Str}
    (ht : ∀ c ∈ t, isSpace c = false) :
    ∃ words', (∀ w ∈ words', IsWord w) ∧ joinWords words ++ t = joinWords words' := by
  induction words with
  | nil => exact absurd rfl hne
  | cons w words ih =>
    obtain ⟨hw, hwords⟩ := List.forall_mem_cons.1 h
    rcases eq_or_ne words [] with rfl | hcons
    · refine ⟨[w ++ t], ?_, rfl⟩
      rintro v hv
      rw [List.mem_singleton.1 hv]
      refine ⟨List.append_ne_nil_of_left_ne_nil hw.1 t, fun c hc => ?_⟩
      rcases List.mem_append.1 hc with hc | hc
      · exact hw.2 c hc
      · exact ht c hc
    · obtain ⟨words', hwords', heq⟩ := ih hwords hcons
      have hcons' : words' ≠ [] := by
        rintro rfl
        have hnil : joinWords words = [] := (List.append_eq_nil_iff.1 heq).1
        have hlength := length_le_joinWords hwords
        rw [hnil] at hlength
        exact hcons (List.length_eq_zero_iff.1 (Nat.le_zero.1 hlength))
      refine ⟨w :: words', List.forall_mem_cons.2 ⟨hw, hwords'⟩, ?_⟩
      rw [joinWords_cons hcons, joinWords_cons hcons', ← heq, List.append_assoc, List.cons_append]

end JoinWords

/-! ### Prefixes -/

/-- `s.partition(sep)` at a character. -/
def partition (s : Str) (sep : Char) : Str × Str × Str :=
  match s.dropWhile (· ≠ sep) with
  | [] => (s, [], [])
  | c :: rest => (s.takeWhile (· ≠ sep), [c], rest)

/-- `s.replace(old, new, 1)`. -/
def replaceFirst (old new : Str) : Str → Str
  | [] => if old = [] then new else []
  | c :: s =>
    if old.isPrefixOf (c :: s) then new ++ (c :: s).drop old.length else c :: replaceFirst old new s

/-- `str.startswith`. -/
def startswith (s pre : Str) : Bool := pre.isPrefixOf s

/-- `str.removeprefix`. -/
def removePrefix (s pre : Str) : Str := if startswith s pre then s.drop pre.length else s

theorem startswith_append (pre s : Str) : startswith (pre ++ s) pre = true :=
  List.isPrefixOf_iff_prefix.2 (List.prefix_append pre s)

theorem removeprefix_append (pre s : Str) : removePrefix (pre ++ s) pre = s := by
  rw [removePrefix, startswith_append, if_pos rfl, List.drop_left]

end Python
