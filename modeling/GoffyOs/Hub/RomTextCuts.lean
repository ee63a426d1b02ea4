import GoffyOs.Hub.RomText
import GoffyOs.Lib.RegexCuts

/-!
# A shown text is shown again

The models of the outputs read their texts again with the function that made them. That changes nothing,
unless a text was cut in the middle of a word: the part of the word that is left may be a command, and the
part of an acronym that is left may be a path.
-/

namespace GoffyHub.Rom

open Python Regex

-- `decide` looks at the members of a list one by one
attribute [local instance (high)] List.decidableBAll

variable {value v s : Str} {maximum m : ℕ}

/-- What is left of a text that is too long. -/
def kept (value : Str) (maximum : ℕ) : Str := rstrip ((normalize value).take (maximum - 3))

/-- What is left of a text that is cut has no path and no command in it, and the word for a blank text is
not cut. -/
structure CutsClean (value : Str) (maximum : ℕ) : Prop where
  blank : normalize value = [] → "unknown".toList.length ≤ maximum
  noPath : maximum < (normalize value).length → containsPathLikeText (kept value maximum) = false
  noCommand : maximum < (normalize value).length →
    ∀ pattern ∈ commandTextPatterns, search (re true) pattern (kept value maximum) = false

/-! ### Normalized texts -/

theorem normalize_joinWords {words : List Str} (h : ∀ w ∈ words, IsWord w) :
    normalize (joinWords words) = joinWords words := by
  rw [normalize, strip_joinWords h, split_joinWords h]

theorem exists_joinWords_normalize (value : Str) :
    ∃ words, (∀ w ∈ words, IsWord w) ∧ normalize value = joinWords words :=
  ⟨_, fun _ hw => isWord_of_mem_splitMax le_rfl hw, rfl⟩

theorem normalize_normalize (value : Str) : normalize (normalize value) = normalize value := by
  obtain ⟨words, hwords, heq⟩ := exists_joinWords_normalize value
  rw [heq, normalize_joinWords hwords]

theorem rstrip_append (s t : Str) : rstrip (s ++ t) =
    if rstrip t = [] then rstrip s else s ++ rstrip t := by
  rw [rstrip, rstrip, rstrip, List.rdropWhile, List.rdropWhile, List.rdropWhile, List.reverse_append,
    List.dropWhile_append]
  by_cases hnil : t.reverse.dropWhile isSpace = []
  · rw [hnil]
    rfl
  · have hrev : (t.reverse.dropWhile isSpace).reverse ≠ [] := fun h => hnil (List.reverse_eq_nil_iff.1 h)
    rw [if_neg (by rwa [List.isEmpty_iff]), if_neg hrev, List.reverse_append, List.reverse_reverse]

theorem rstrip_eq_self (hs : ∀ c ∈ s, isSpace c = false) : rstrip s = s := by
  refine List.rdropWhile_eq_self_iff.2 fun hne => ?_
  rw [hs _ (List.getLast_mem hne)]
  exact Bool.false_ne_true

/-- Something is left of a text that starts with no space. -/
theorem rstrip_take_ne_nil {n : ℕ} (hn : n ≠ 0) (hne : s ≠ [])
    (hs : ∀ c, s.head? = some c → isSpace c = false) : rstrip (s.take n) ≠ [] := by
  intro hnil
  obtain ⟨c, t, rfl⟩ := List.exists_cons_of_ne_nil hne
  obtain ⟨k, rfl⟩ := Nat.exists_eq_succ_of_ne_zero hn
  have hspace := List.rdropWhile_eq_nil_iff.1 hnil c List.mem_cons_self
  rw [hs c rfl] at hspace
  cases hspace

/-- A cut leaves words. -/
theorem exists_joinWords_take {words : List Str} (h : ∀ w ∈ words, IsWord w) (n : ℕ) :
    ∃ words', (∀ w ∈ words', IsWord w) ∧ rstrip ((joinWords words).take n) = joinWords words' := by
  have hword (w : Str) (hw : ∀ c ∈ w, isSpace c = false) :
      ∃ words', (∀ w ∈ words', IsWord w) ∧ rstrip w = joinWords words' := by
    rcases eq_or_ne w [] with rfl | hne
    · exact ⟨[], fun w hw => absurd hw List.not_mem_nil, rfl⟩
    · exact ⟨[w], fun v hv => List.mem_singleton.1 hv ▸ ⟨hne, hw⟩, rstrip_eq_self hw⟩
  induction words generalizing n with
  | nil => exact hword _ fun c hc => absurd (List.mem_of_mem_take hc) List.not_mem_nil
  | cons w words ih =>
    obtain ⟨hw, hwords⟩ := List.forall_mem_cons.1 h
    rcases eq_or_ne words [] with rfl | hne
    · exact hword _ fun c hc => hw.2 c (List.mem_of_mem_take hc)
    rw [joinWords_cons hne, List.take_append]
    -- the cut is in the first word, right behind it, or behind the space
    rcases Nat.eq_zero_or_pos (n - w.length) with hzero | hpos
    · rw [hzero, List.take_zero, List.append_nil]
      exact hword _ fun c hc => hw.2 c (List.mem_of_mem_take hc)
    · obtain ⟨words', hwords', heq⟩ := ih hwords (n - w.length - 1)
      obtain ⟨k, hk⟩ := Nat.exists_eq_succ_of_ne_zero (Nat.ne_of_gt hpos)
      rw [hk, Nat.succ_sub_one] at heq
      have hspace : rstrip [' '] = [] := by decide
      rw [hk, List.take_succ_cons, List.take_of_length_le (by omega), List.append_cons,
        rstrip_append, heq]
      split
      case isTrue =>
        rw [rstrip_append, hspace, if_pos rfl]
        exact hword w hw.2
      case isFalse hcons =>
        have hcons' : words' ≠ [] := fun hnil => hcons (by rw [hnil]; rfl)
        refine ⟨w :: words', List.forall_mem_cons.2 ⟨hw, hwords'⟩, ?_⟩
        rw [joinWords_cons hcons', List.append_assoc, List.singleton_append]

/-- A cut text loses one space at most, since words are separated by single spaces. -/
theorem le_length_rstrip_take {words : List Str} (h : ∀ w ∈ words, IsWord w) {n : ℕ}
    (hn : n ≤ (joinWords words).length) : n ≤ (rstrip ((joinWords words).take n)).length + 1 := by
  induction words generalizing n with
  | nil => exact hn.trans (Nat.zero_le _)
  | cons w words ih =>
    obtain ⟨hw, hwords⟩ := List.forall_mem_cons.1 h
    rcases Nat.lt_or_ge w.length n with hlt | hle
    · rcases eq_or_ne words [] with rfl | hne
      · exact absurd hn (Nat.not_le.2 hlt)
      rw [joinWords_cons hne] at hn ⊢
      rw [List.length_append, List.length_cons] at hn
      obtain ⟨k, rfl⟩ := Nat.exists_eq_add_of_lt hlt
      have htake : (w ++ ' ' :: joinWords words).take (w.length + k + 1) =
          w ++ [' '] ++ (joinWords words).take k := by
        rw [List.append_cons, List.take_append, List.take_of_length_le (by simp)]
        simp
      have hrest := ih hwords (n := k) (by omega)
      have hspace : rstrip [' '] = [] := by decide
      rw [htake, rstrip_append]
      split
      case isTrue hnil =>
        -- nothing is left behind the space only where the cut is right behind it
        have hk : k = 0 := by
          by_contra hpos
          refine rstrip_take_ne_nil hpos ?_ (fun c hc => head?_joinWords hwords hc) hnil
          exact List.length_pos_iff.1 (by omega)
        rw [rstrip_append, hspace, if_pos rfl, rstrip_eq_self hw.2]
        omega
      case isFalse =>
        rw [List.length_append, List.length_append, List.length_singleton]
        omega
    · have htake : (joinWords (w :: words)).take n = w.take n := by
        rcases eq_or_ne words [] with rfl | hne
        · rfl
        · rw [joinWords_cons hne, List.take_append_of_le_length hle]
      rw [htake, rstrip_eq_self fun c hc => hw.2 c (List.mem_of_mem_take hc), List.length_take]
      omega

/-! ### The dots -/

theorem mem_of_mem_kept {c : Char} (hc : c ∈ kept value maximum) : c ∈ normalize value :=
  List.mem_of_mem_take ((List.rdropWhile_prefix _ _).subset hc)

/-- Something is left of a text that is cut, since it starts with no space. -/
theorem kept_ne_nil (hmaximum : 4 ≤ maximum) (hlong : maximum < (normalize value).length) :
    kept value maximum ≠ [] :=
  rstrip_take_ne_nil (by omega) (List.ne_nil_of_length_pos (Nat.zero_lt_of_lt hlong))
    fun _ hc => head_normalize hc

/-- What is left is as long as the maximum asks for, but for a space. -/
theorem le_length_kept (hlong : maximum < (normalize value).length) :
    maximum - 3 ≤ (kept value maximum).length + 1 := by
  obtain ⟨words, hwords, heq⟩ := exists_joinWords_normalize value
  rw [kept, heq]
  rw [heq] at hlong
  exact le_length_rstrip_take hwords (by omega)

theorem normalize_cut (hmaximum : 4 ≤ maximum) (hlong : maximum < (normalize value).length) :
    normalize (kept value maximum ++ "...".toList) = kept value maximum ++ "...".toList := by
  obtain ⟨words, hwords, heq⟩ := exists_joinWords_normalize value
  obtain ⟨words', hwords', hkept⟩ := exists_joinWords_take hwords (maximum - 3)
  have hkept' : kept value maximum = joinWords words' := by rw [kept, heq, hkept]
  have hne : words' ≠ [] := by
    rintro rfl
    exact kept_ne_nil hmaximum hlong hkept'
  obtain ⟨words'', hwords'', hdots⟩ := exists_joinWords_append hwords' hne
    (t := "...".toList) (by decide)
  rw [hkept', hdots, normalize_joinWords hwords'']

theorem length_cut (hmaximum : 3 ≤ maximum) :
    (kept value maximum ++ "...".toList).length ≤ maximum := by
  have hkept : (kept value maximum).length ≤ maximum - 3 :=
    (List.rdropWhile_prefix _ _).length_le.trans (List.length_take_le _ _)
  have hdots : "...".toList.length = 3 := by decide
  rw [List.length_append, hdots]
  omega

/-- The dots are no part of a path. -/
theorem containsPathLikeText_dots (s : Str) :
    containsPathLikeText (s ++ "...".toList) = containsPathLikeText s := by
  have hfile : "file://".toList = "file:/".toList ++ ['/'] := by decide
  have hfold : casefold (s ++ "...".toList) = casefold s ++ "...".toList := by
    rw [casefold, casefold, List.flatMap_append]
    rfl
  have hremove : remove (re false) safeSlashToken (s ++ "...".toList) =
      remove (re false) safeSlashToken s ++ "...".toList :=
    remove_append (by decide) (by decide) (by decide)
  rw [containsPathLikeText, containsPathLikeText, hfold, hremove, hfile,
    contains_append_eq _ (by decide)]
  have hcontains (c : Char) (t : Str) (hc : c ∉ "...".toList) :
      (t ++ "...".toList).contains c = t.contains c := by
    rw [Bool.eq_iff_iff, List.contains_iff_mem, List.contains_iff_mem, List.mem_append]
    exact or_iff_left hc
  rw [hcontains '\\' s (by decide), hcontains '/' _ (by decide)]

/-- They are no part of a command. -/
theorem search_dots {pattern : Pattern} (hpattern : pattern ∈ commandTextPatterns) (s : Str) :
    search (re true) pattern (s ++ "...".toList) = search (re true) pattern s := by
  have hshape : ∀ p ∈ commandTextPatterns,
      p.endless = true ∧ p.nonEmpty = true ∧ p.lastIn (!reIsIn true · '.') = true := by
    decide +kernel
  obtain ⟨hendless, hne, hlast⟩ := hshape pattern hpattern
  refine search_append_eq hendless hne hlast (by decide) fun a ha set hset => ?_
  have hdot : a = '.' := by
    have hdots : ∀ c ∈ "...".toList, c = '.' := by decide
    exact hdots a ha
  have hin : reIsIn true set '.' = false := by simpa using hset
  rw [hdot]
  exact hin

/-! ### A text that is shown again -/

theorem boundedText_of_normalized (hnormal : normalize v = v) (hne : v ≠ []) (hlength : v.length ≤ m)
    (hcontrol : v.any isControlOrFormat = false) : boundedText v m = .ok v ↔
      containsPathLikeText v = false ∧
        ∀ pattern ∈ commandTextPatterns, search (re true) pattern v = false := by
  constructor
  · intro h
    obtain ⟨-, hpath, hcommand, -⟩ := boundedText_ok h
    rw [hnormal] at hpath hcommand
    exact ⟨hpath, fun pattern hpattern => by simpa using List.any_eq_false.1 hcommand pattern hpattern⟩
  · rintro ⟨hpath, hcommand⟩
    have hany : (commandTextPatterns.any fun pattern => search (re true) pattern v) = false :=
      List.any_eq_false.2 fun pattern hpattern => by simpa using hcommand pattern hpattern
    unfold boundedText
    dsimp only
    rw [hnormal, hcontrol, hpath, hany, if_neg Bool.false_ne_true, if_neg Bool.false_ne_true,
      if_neg Bool.false_ne_true, if_neg (Nat.not_lt.2 hlength), if_neg hne]

/-- The word for a blank text is shown again where it is not too long. -/
theorem boundedText_unknown (hm : 4 ≤ m) :
    boundedText "unknown".toList m = .ok "unknown".toList ↔ "unknown".toList.length ≤ m := by
  have hnormal : normalize "unknown".toList = "unknown".toList := by decide
  constructor
  · intro h
    by_contra hshort
    obtain ⟨-, -, -, hv⟩ := boundedText_ok h
    have hlong : m < (normalize "unknown".toList).length := by
      rw [hnormal]
      exact Nat.not_le.1 hshort
    rw [if_pos hlong] at hv
    refine hshort ?_
    calc "unknown".toList.length = _ := congrArg List.length hv
      _ ≤ m := length_cut (by omega)
  · intro hlength
    exact (boundedText_of_normalized hnormal (by decide) hlength (by decide)).2
      ⟨by decide +kernel, by decide +kernel⟩

/-- **A shown text is shown again as it is** exactly if the cut left no path and no command. -/
theorem boundedText_again_iff (hmaximum : 4 ≤ maximum) (h : boundedText value maximum = .ok v) :
    (∀ m, maximum ≤ m → boundedText v m = .ok v) ↔ CutsClean value maximum := by
  obtain ⟨hcontrol, hpath, hcommand, rfl⟩ := boundedText_ok h
  by_cases hlong : maximum < (normalize value).length
  · have hne : normalize value ≠ [] := List.ne_nil_of_length_pos (Nat.zero_lt_of_lt hlong)
    have hcontrol' : (kept value maximum ++ "...".toList).any isControlOrFormat = false := by
      rw [List.any_eq_false] at hcontrol ⊢
      intro c hc
      rcases List.mem_append.1 hc with hc | hc
      · exact hcontrol c (mem_of_mem_kept hc)
      · have hdots : ∀ c ∈ "...".toList, ¬ isControlOrFormat c = true := by decide
        exact hdots c hc
    have hagain (m : ℕ) (hm : maximum ≤ m) :=
      boundedText_of_normalized (normalize_cut hmaximum hlong)
        (List.append_ne_nil_of_left_ne_nil (kept_ne_nil hmaximum hlong) _)
        ((length_cut (by omega)).trans hm) hcontrol'
    rw [if_pos hlong]
    constructor
    · intro hshown
      obtain ⟨hpath', hcommand'⟩ := (hagain maximum (Nat.le_refl _)).1 (hshown maximum (Nat.le_refl _))
      rw [containsPathLikeText_dots] at hpath'
      refine ⟨fun hnil => absurd hnil hne, fun _ => hpath', fun _ pattern hpattern => ?_⟩
      rw [← search_dots hpattern]
      exact hcommand' pattern hpattern
    · intro hclean m hm
      refine (hagain m hm).2 ⟨?_, fun pattern hpattern => ?_⟩
      · rw [containsPathLikeText_dots]
        exact hclean.noPath hlong
      · rw [search_dots hpattern]
        exact hclean.noCommand hlong pattern hpattern
  · rw [if_neg hlong]
    by_cases hnil : normalize value = []
    · rw [if_pos hnil]
      constructor
      · intro hshown
        exact ⟨fun _ => (boundedText_unknown hmaximum).1 (hshown maximum (Nat.le_refl _)),
          fun hlong' => absurd hlong' hlong, fun hlong' => absurd hlong' hlong⟩
      · intro hclean m hm
        exact (boundedText_unknown (hmaximum.trans hm)).2 ((hclean.blank hnil).trans hm)
    · rw [if_neg hnil]
      refine ⟨fun _ => ⟨fun hnil' => absurd hnil' hnil, fun hlong' => absurd hlong' hlong,
        fun hlong' => absurd hlong' hlong⟩, fun _ m hm => ?_⟩
      refine (boundedText_of_normalized (normalize_normalize value) hnil
        ((Nat.not_lt.1 hlong).trans hm) hcontrol).2 ⟨hpath, fun pattern hpattern => ?_⟩
      simpa using List.any_eq_false.1 hcommand pattern hpattern

/-- A text of two words that fits. -/
theorem short_shellfish_shown_again : boundedText "a shellfish".toList 11 = .ok "a shellfish".toList ∧
    ∀ m, 11 ≤ m → boundedText "a shellfish".toList m = .ok "a shellfish".toList := by
  have h : boundedText "a shellfish".toList 11 = .ok "a shellfish".toList := by decide +kernel
  refine ⟨h, (boundedText_again_iff (by decide) h).2 ⟨fun hnil => ?_, fun hlong => ?_, fun hlong => ?_⟩⟩
  · exact absurd hnil (by decide +kernel)
  · exact absurd hlong (by decide +kernel)
  · exact absurd hlong (by decide +kernel)

/-- The cut leaves the name of a command. -/
theorem cut_leaves_shell : boundedText "a shellfish".toList 10 = .ok "a shell...".toList ∧
    boundedText "a shell...".toList 10 =
      .error (.valueError "text contains unsupported command-like content") := by
  decide +kernel

end GoffyHub.Rom
