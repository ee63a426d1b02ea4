import GoffyOs.Hub.RomText
import GoffyOs.Phone.RomTools
import Mathlib.Data.List.Infix

/-!
# The texts of the ROM tools across the two sides

The Hub and the phone look for paths and commands with the same patterns, each with its own engine and
its own exceptions for a slash. On printable ASCII the engines agree, and a text that is safe for the Hub
is safe for the phone (`isSafeRomStatusField_of_isSafe`).
-/

namespace GoffyHub.Rom

open GoffyPhone Kotlin Regex

variable {c : Char} {s w : Python.Str} {n : ℕ}

/-! ### The engines -/

theorem toNat_toLower (c : Char) : c.toLower.toNat =
    if 0x41 ≤ c.toNat ∧ c.toNat ≤ 0x5a then c.toNat + 0x20 else c.toNat := by
  delta Char.toLower
  have hiff : (c.val ≥ 'A'.val ∧ c.val ≤ 'Z'.val) ↔ 0x41 ≤ c.toNat ∧ c.toNat ≤ 0x5a := Iff.rfl
  split
  case isTrue h =>
    have h' := hiff.1 h
    rw [if_pos h']
    have hadd : (c.val + ('a'.val - 'A'.val)).toNat = (c.val.toNat + 32) % 2 ^ 32 := UInt32.toNat_add _ _
    have hval : c.val.toNat = c.toNat := rfl
    show (c.val + ('a'.val - 'A'.val)).toNat = c.toNat + 32
    rw [hadd, hval]
    omega
  case isFalse h =>
    rw [if_neg fun h' => h (hiff.2 h')]

/-- What both sides make of a character when they ignore the case, by its code. -/
def foldCode (n : ℕ) : ℕ :=
  if 0x41 ≤ n ∧ n ≤ 0x5a then n + 0x20
  else if n = 0x130 ∨ n = 0x131 then 0x69
  else if n = 0x17f then 0x73
  else if n = 0x212a then 0x6b
  else n

theorem toNat_reFold (c : Char) : (Python.reFold c).toNat = foldCode c.toNat := by
  unfold Python.reFold foldCode
  split
  · next h => rw [h]; decide
  · next h => rw [h]; decide
  · next h => rw [h]; decide
  · next h => rw [h]; decide
  · next h1 h2 h3 h4 =>
    rw [toNat_toLower]
    split
    · rfl
    · have hdotted : ¬ (c.toNat = 0x130 ∨ c.toNat = 0x131) := not_or.2 ⟨h1, h2⟩
      rw [if_neg hdotted]

theorem toNat_foldUnit (u : UInt16) : (foldUnit u).toNat = foldCode u.toNat := by
  unfold foldUnit foldCode
  have hcapital : (0x41 ≤ u ∧ u ≤ 0x5a) ↔ (0x41 ≤ u.toNat ∧ u.toNat ≤ 0x5a) := Iff.rfl
  have heq : ∀ v : UInt16, u = v ↔ u.toNat = v.toNat := fun v => UInt16.toNat_inj.symm
  simp only [hcapital, heq]
  split
  case isTrue h =>
    have hadd : (u + 0x20).toNat = (u.toNat + 32) % 2 ^ 16 := UInt16.toNat_add _ _
    rw [hadd]
    omega
  case isFalse =>
    have h1 : (0x130 : UInt16).toNat = 0x130 := rfl
    have h2 : (0x131 : UInt16).toNat = 0x131 := rfl
    have h3 : (0x17f : UInt16).toNat = 0x17f := rfl
    have h4 : (0x212a : UInt16).toNat = 0x212a := rfl
    rw [h1, h2, h3, h4]
    repeat' split
    all_goals rfl

theorem foldCode_lt {n : ℕ} (hn : n < 0x10000) : foldCode n < 0x10000 := by
  unfold foldCode
  repeat' split
  all_goals omega

/-- Both sides fold a character of the basic plane in the same way. -/
theorem foldUnit_unit (hc : c.toNat < 0x10000) : foldUnit (unit c) = unit (Python.reFold c) := by
  have hfold : (Python.reFold c).toNat < 0x10000 := by
    rw [toNat_reFold]
    exact foldCode_lt hc
  apply UInt16.toNat_inj.1
  rw [toNat_foldUnit, toNat_unit hc, toNat_unit hfold, toNat_reFold]

theorem inRanges_unit (rs : List (Char × Char)) (hc : c.toNat < 0x10000) :
    Kotlin.inRanges rs (unit c) = Python.inRanges rs c := by
  unfold Kotlin.inRanges Python.inRanges
  rw [toNat_unit hc]

/-- A statement about the printable characters is checked on each of them. -/
theorem forall_printable {P : Char → Prop} (h : ∀ n < 95, P (Char.ofNat (n + 0x20)))
    (hc : isPrintable c = true) : P c := by
  rw [isPrintable_iff] at hc
  have hn := h (c.toNat - 0x20) (by omega)
  rwa [Nat.sub_add_cancel hc.1, Char.ofNat_toNat] at hn

/-- The engines agree on printable ASCII. -/
theorem agree_printable (ignoreCase : Bool) :
    Agree (Python.re ignoreCase) (regex ignoreCase) unit fun c => isPrintable c = true where
  isIn c hc set := by
    have hlt : c.toNat < 0x10000 := lt_of_isPrintable hc
    have hfoldlt : (Python.reFold c).toNat < 0x10000 := by
      rw [toNat_reFold]
      exact foldCode_lt hlt
    have hbounds := isPrintable_iff.1 hc
    cases set with
    | char d =>
      show (if ignoreCase then decide ((units d).map foldUnit = [foldUnit (unit c)])
          else decide (units d = [unit c])) =
        (if ignoreCase then decide (Python.reFold c = Python.reFold d) else decide (c = d))
      by_cases hd : d.toNat < 0x10000
      · have hfoldd : (Python.reFold d).toNat < 0x10000 := by
          rw [toNat_reFold]
          exact foldCode_lt hd
        have hunits : units d = [unit d] := units_of_lt hd
        have hfold : (units d).map foldUnit = [foldUnit (unit c)] ↔ Python.reFold c = Python.reFold d := by
          rw [hunits, List.map_singleton, foldUnit_unit hd, foldUnit_unit hlt, List.singleton_inj,
            unit_inj hfoldd hfoldlt]
          exact eq_comm
        have hsame : units d = [unit c] ↔ c = d := by
          rw [hunits, List.singleton_inj, unit_inj hd hlt]
          exact eq_comm
        simp only [hfold, hsame]
      · have htwo := length_units_of_ge (Nat.not_lt.1 hd)
        have hunits : ∀ u, units d ≠ [u] := by
          intro u h
          rw [h, List.length_singleton] at htwo
          omega
        have hfold : (units d).map foldUnit ≠ [foldUnit (unit c)] := by
          intro h
          have hlength := congrArg List.length h
          rw [List.length_map, htwo, List.length_singleton] at hlength
          omega
        have hne : c ≠ d := by
          rintro rfl
          exact hd hlt
        have hnefold : Python.reFold c ≠ Python.reFold d := by
          intro h
          have hcode := congrArg Char.toNat h
          rw [toNat_reFold, toNat_reFold] at hcode
          have hc' := foldCode_lt hlt
          have hd' : foldCode d.toNat = d.toNat := by
            unfold foldCode
            rw [if_neg (by omega), if_neg (by omega), if_neg (by omega), if_neg (by omega)]
          omega
        rw [decide_eq_false hfold, decide_eq_false (hunits _), decide_eq_false hne,
          decide_eq_false hnefold]
    | ranges rs =>
      have hupper : Kotlin.inRanges rs (capital (foldUnit (unit c))) =
          Python.inRanges rs (Python.reFold c).toUpper := by
        have hcapital : capital (foldUnit (unit c)) = unit (Python.reFold c).toUpper ∧
            (Python.reFold c).toUpper.toNat < 0x10000 :=
          forall_printable (P := fun c => capital (foldUnit (unit c)) =
            unit (Python.reFold c).toUpper ∧ (Python.reFold c).toUpper.toNat < 0x10000)
            (by decide) hc
        rw [hcapital.1, inRanges_unit rs hcapital.2]
      show (Kotlin.inRanges rs (unit c) || (ignoreCase && (Kotlin.inRanges rs (foldUnit (unit c)) ||
          Kotlin.inRanges rs (capital (foldUnit (unit c)))))) = _
      rw [hupper, foldUnit_unit hlt, inRanges_unit rs hlt, inRanges_unit rs hfoldlt]
      rfl
    | any =>
      exact forall_printable
        (P := fun c => regexIsIn ignoreCase .any (unit c) = Python.reIsIn ignoreCase .any c)
        (by cases ignoreCase <;> decide) hc
    | space =>
      exact forall_printable
        (P := fun c => regexIsIn ignoreCase .space (unit c) = Python.reIsIn ignoreCase .space c)
        (by cases ignoreCase <;> decide) hc
    | notSpace =>
      exact forall_printable
        (P := fun c => regexIsIn ignoreCase .notSpace (unit c) = Python.reIsIn ignoreCase .notSpace c)
        (by cases ignoreCase <;> decide) hc
  isWord c hc := forall_printable (P := fun c => isWordUnit (unit c) = Python.isWordChar c)
    (by decide) hc

/-! ### Paths -/

theorem contains_iff {s t : Python.Str} : Python.contains s t = true ↔ ∃ r, r <:+ s ∧ t <+: r := by
  simp only [Python.contains, List.any_eq_true, List.mem_tails, List.isPrefixOf_iff_prefix]

theorem casefold_of_printable (hs : Printable s) : Python.casefold s = s.map Char.toLower := by
  induction s with
  | nil => rfl
  | cons c s ih =>
    have hc : Python.casefoldChar c = [c.toLower] :=
      forall_printable (P := fun c => Python.casefoldChar c = [c.toLower]) (by decide)
        (hs c List.mem_cons_self)
    have hrest := ih fun d hd => hs d (List.mem_cons_of_mem _ hd)
    unfold Python.casefold at hrest ⊢
    rw [List.flatMap_cons, hc, hrest]
    rfl

/-- Both sides find the URL of a file. -/
theorem containsIgnoreCase_of_printable (hs : Printable s)
    (h : containsIgnoreCase (ofChars s) (lit "file://") = true) :
    Python.contains (Python.casefold s) "file://".toList = true := by
  have hlower : ∀ c ∈ s.map Char.toLower, c.toNat < 0x10000 := by
    intro c hc
    obtain ⟨d, hd, rfl⟩ := List.mem_map.1 hc
    exact forall_printable (P := fun d => d.toLower.toNat < 0x10000) (by decide) (hs d hd)
  have hfold : (ofChars s).map foldUnit = ofChars (s.map Char.toLower) := by
    rw [ofChars_eq_map fun c hc => lt_of_isPrintable (hs c hc), ofChars_eq_map hlower, List.map_map,
      List.map_map]
    refine List.map_congr_left fun c hc => ?_
    exact forall_printable (P := fun c => foldUnit (unit c) = unit c.toLower) (by decide) (hs c hc)
  have hpattern : (lit "file://").map foldUnit = ofChars "file://".toList := by decide
  rw [containsIgnoreCase, hfold, hpattern] at h
  rw [casefold_of_printable hs, contains_iff]
  rw [ofChars_eq_map hlower, List.any_eq_true] at h
  obtain ⟨r', hr', hpre⟩ := h
  rw [List.mem_tails] at hr'
  obtain ⟨r, hr, rfl⟩ : ∃ r, r <:+ s.map Char.toLower ∧ r.map unit = r' := by
    refine ⟨(s.map Char.toLower).drop ((s.map Char.toLower).length - r'.length),
      List.drop_suffix _ _, ?_⟩
    rw [List.map_drop]
    have hdrop := List.suffix_iff_eq_drop.1 hr'
    rw [List.length_map (f := unit)] at hdrop
    exact hdrop.symm
  have hbasic : ∀ c ∈ r, c.toNat < 0x10000 := fun c hc => hlower c (hr.subset hc)
  rw [List.isPrefixOf_iff_prefix, ← ofChars_eq_map hbasic, prefix_ofChars hbasic] at hpre
  exact ⟨r, hr, hpre⟩

/-! ### Slashes -/

/-- Every slash of the text is followed by a letter or digit of an acronym. -/
def SlashesInAcronyms (s : Python.Str) : Prop :=
  ∀ u v, s = u ++ '/' :: v → ∃ d v', v = d :: v' ∧ (Python.re false).isIn acronymSet d = true

theorem SlashesInAcronyms.append (hs : SlashesInAcronyms s) (hw : SlashesInAcronyms w) :
    SlashesInAcronyms (s ++ w) := by
  intro u v h
  rcases List.append_eq_append_iff.1 h with ⟨r, hu, hr⟩ | ⟨r, hs', hr⟩
  · exact hw r v hr
  · cases r with
    | nil => exact hw [] v hr.symm
    | cons d r =>
      obtain ⟨rfl, hv⟩ := List.cons.inj hr
      obtain ⟨d', r', rfl, hd'⟩ := hs u r hs'
      exact ⟨d', r' ++ w, hv, hd'⟩

theorem SlashesInAcronyms.of_append (h : SlashesInAcronyms (s ++ w)) : SlashesInAcronyms w := by
  rintro u v rfl
  exact h (s ++ u) v (List.append_assoc _ _ _).symm

theorem slash_notIn_acronymSet : (Python.re false).isIn acronymSet '/' = false := by decide

theorem slashesInAcronyms_of_allIn (hs : AllIn (Python.re false) acronymSet s) :
    SlashesInAcronyms s := by
  rintro u v rfl
  have hslash := hs '/' (List.mem_append_right _ List.mem_cons_self)
  rw [slash_notIn_acronymSet] at hslash
  exact absurd hslash Bool.false_ne_true

/-- A group of acronyms has its slashes between them. -/
theorem slashesInAcronyms_of_lang (h : Lang (Python.re false) acronyms w) : SlashesInAcronyms w := by
  have hnext : ∀ v, Lang (Python.re false)
      (.seq (.one (.char '/')) (.between (.one acronymSet) 2 8)) v → SlashesInAcronyms v := by
    rintro _ ⟨_, t, rfl, ⟨d, rfl, hd⟩, ht⟩
    obtain rfl : d = '/' := of_decide_eq_true hd
    obtain ⟨hall, hlength, -⟩ := lang_between_one (by decide) ht
    intro u v huv
    cases u with
    | nil =>
      obtain ⟨-, rfl⟩ := List.cons.inj huv
      obtain ⟨d, t', rfl⟩ := List.exists_cons_of_length_pos (Nat.zero_lt_of_lt hlength)
      exact ⟨d, t', rfl, hall d List.mem_cons_self⟩
    | cons d u =>
      obtain ⟨-, ht'⟩ := List.cons.inj huv
      exact slashesInAcronyms_of_allIn hall u v ht'
  obtain ⟨first, rest, rfl, hfirst, second, others, rfl, hsecond, ⟨us, rfl, hus⟩⟩ := h
  have hothers : ∀ us : List Python.Str, (∀ u ∈ us, SlashesInAcronyms u) →
      SlashesInAcronyms us.flatten := by
    intro us hus
    induction us with
    | nil =>
      intro u v h
      exact absurd (congrArg List.length h) (by simp)
    | cons u us ih =>
      exact (hus u List.mem_cons_self).append (ih fun v hv => hus v (List.mem_cons_of_mem _ hv))
  exact (slashesInAcronyms_of_allIn (lang_between_one (by decide) hfirst).1).append
    ((hnext second hsecond).append (hothers us fun u hu => hnext u (hus u hu)))

theorem lang_boundaries {p : Pattern} (h : Lang (Python.re false) (.inTurn [.boundary, p, .boundary]) w) :
    Lang (Python.re false) p w := by
  obtain ⟨u, v, rfl, hu, u', v', rfl, hu', hv'⟩ := h
  obtain rfl : u = [] := hu
  obtain rfl : v' = [] := hv'
  simpa using hu'

/-- A slash that is in no acronym stays. -/
theorem slash_mem_removeFrom (fuel : ℕ) : ∀ x : Cursor Char, ¬ SlashesInAcronyms x.rest →
    '/' ∈ removeFrom (Python.re false) safeSlashToken fuel x := by
  induction fuel with
  | zero =>
    intro x hx
    rw [SlashesInAcronyms] at hx
    push Not at hx
    obtain ⟨u, v, huv, -⟩ := hx
    rw [removeFrom, huv]
    exact List.mem_append_right _ List.mem_cons_self
  | succ fuel ih =>
    intro x hx
    rw [removeFrom]
    cases hrest : x.rest with
    | nil =>
      refine absurd (fun u v h => ?_) hx
      rw [hrest] at h
      exact absurd (congrArg List.length h) (by simp)
    | cons a s =>
      have hkeep : '/' ∈ a :: removeFrom (Python.re false) safeSlashToken fuel ⟨a :: x.before, s, []⟩ := by
        by_cases ha : a = '/'
        · rw [ha]
          exact List.mem_cons_self
        · refine List.mem_cons_of_mem _ (ih ⟨a :: x.before, s, []⟩ fun hs => hx ?_)
          rw [hrest]
          intro u v huv
          cases u with
          | nil => exact absurd (List.cons.inj huv).1 ha
          | cons d u => exact hs u v (List.cons.inj huv).2
      dsimp only
      cases hfirst : (run (Python.re false) safeSlashToken x).head? with
      | none => exact hkeep
      | some y =>
        dsimp only
        split
        · obtain ⟨w, hw, hmoved, -⟩ := lang_of_mem_run safeSlashToken x y (List.mem_of_mem_head? hfirst)
          refine ih ⟨y.before, y.rest, []⟩ fun hy => hx ?_
          rw [hmoved]
          exact (slashesInAcronyms_of_lang (lang_boundaries hw)).append hy
        · exact hkeep

/-- The only word of a literal. -/
theorem eq_of_lang_text {t : Python.Str} (h : Lang (Python.re false) (.text t) w) : w = t := by
  induction t generalizing w with
  | nil => exact h
  | cons c t ih =>
    cases t with
    | nil =>
      obtain ⟨d, rfl, hd⟩ := h
      obtain rfl : d = c := of_decide_eq_true hd
      rfl
    | cons d t =>
      obtain ⟨_, v, rfl, ⟨c', rfl, hc'⟩, hv⟩ := h
      obtain rfl : c' = c := of_decide_eq_true hc'
      rw [ih hv]
      rfl

/-- A literal with a slash before a small letter is nowhere in such a text. -/
theorem run_text_eq_nil {x : Cursor Char} (hx : SlashesInAcronyms x.rest) {u t : Python.Str}
    {d : Char} (hd : (Python.re false).isIn acronymSet d = false) :
    run (Python.re false) (.text (u ++ '/' :: d :: t)) x = [] := by
  refine List.eq_nil_iff_forall_not_mem.2 fun y hy => ?_
  obtain ⟨w, hw, hmoved, -⟩ := lang_of_mem_run _ x y hy
  rw [eq_of_lang_text hw] at hmoved
  obtain ⟨d', v', hv, hd'⟩ := hx u (d :: (t ++ y.rest)) (by rw [hmoved, List.append_assoc]; rfl)
  obtain rfl := (List.cons.inj hv).1
  rw [hd] at hd'
  exact Bool.false_ne_true hd'

/-- The exceptions of the phone that the Hub does not have are no matches in such a text. -/
theorem run_goffyRomSafeSlashToken {x : Cursor Char} (hx : SlashesInAcronyms x.rest) :
    run (Python.re false) goffyRomSafeSlashToken x = run (Python.re false) safeSlashToken x := by
  have hhome : run (Python.re false) (.literal "home/system-app") x = [] :=
    run_text_eq_nil (u := "home".toList) (t := "ystem-app".toList) hx (by decide)
  have happ : run (Python.re false) (.literal "app/default-launcher") x = [] :=
    run_text_eq_nil (u := "app".toList) (t := "efault-launcher".toList) hx (by decide)
  have hone : run (Python.re false) (.oneOf [.seq acronym (.plus (.seq (.one (.char '/')) acronym)),
      .literal "home/system-app", .literal "app/default-launcher"]) x =
      run (Python.re false) acronyms x := by
    show run (Python.re false) acronyms x ++ (run (Python.re false) (.literal "home/system-app") x ++
      run (Python.re false) (.literal "app/default-launcher") x) = _
    rw [hhome, happ, List.append_nil, List.append_nil]
  show (run (Python.re false) .boundary x).flatMap
      (fun z => (run (Python.re false) _ z).flatMap (run (Python.re false) .boundary)) =
    (run (Python.re false) .boundary x).flatMap
      (fun z => (run (Python.re false) acronyms z).flatMap (run (Python.re false) .boundary))
  refine List.flatMap_congr fun z hz => ?_
  have hzx : z = x := by
    unfold run at hz
    split at hz
    · exact List.mem_singleton.1 hz
    · exact absurd hz List.not_mem_nil
  rw [hzx, hone]

theorem removeFrom_goffyRomSafeSlashToken (fuel : ℕ) : ∀ x : Cursor Char, SlashesInAcronyms x.rest →
    removeFrom (Python.re false) goffyRomSafeSlashToken fuel x =
      removeFrom (Python.re false) safeSlashToken fuel x := by
  induction fuel with
  | zero => exact fun x _ => rfl
  | succ fuel ih =>
    intro x hx
    rw [removeFrom, removeFrom, run_goffyRomSafeSlashToken hx]
    cases hrest : x.rest with
    | nil => rfl
    | cons a s =>
      rw [hrest] at hx
      have hkeep := ih ⟨a :: x.before, s, []⟩ (SlashesInAcronyms.of_append (s := [a]) hx)
      dsimp only
      cases hfirst : (run (Python.re false) safeSlashToken x).head? with
      | none => exact congrArg (a :: ·) hkeep
      | some y =>
        obtain ⟨w, -, hmoved, -⟩ :=
          lang_of_mem_run safeSlashToken x y (List.mem_of_mem_head? hfirst)
        rw [← hrest, hmoved] at hx
        have hskip := ih ⟨y.before, y.rest, []⟩ hx.of_append
        dsimp only
        split
        · exact hskip
        · exact congrArg (a :: ·) hkeep

/-- Where neither a URL of a file nor a slash is left for the Hub, the phone finds no path. -/
theorem containsGoffyRomPathLikeText_of_remove (hs : Printable s)
    (hurl : Python.contains (Python.casefold s) "file://".toList = false) (hbackslash : '\\' ∉ s)
    (hslash : (remove (Python.re false) goffyRomSafeSlashToken s).contains '/' = false) :
    containsGoffyRomPathLikeText (ofChars s) = false := by
  have hbasic : ∀ c ∈ s, c.toNat < 0x10000 := fun c hc => lt_of_isPrintable (hs c hc)
  have hphoneBackslash : (ofChars s).contains backslash = false := by
    rw [← Bool.not_eq_true, List.contains_iff_mem]
    exact fun hmem => hbackslash ((toUInt16_mem_ofChars (d := '\\') (by decide)).1 hmem)
  have hphoneUrl : containsIgnoreCase (ofChars s) (lit "file://") = false := by
    rw [← Bool.not_eq_true]
    intro hphone
    rw [containsIgnoreCase_of_printable hs hphone] at hurl
    exact absurd hurl (by decide)
  have hremove : remove (regex false) goffyRomSafeSlashToken (ofChars s) =
      ofChars (remove (Python.re false) goffyRomSafeSlashToken s) := by
    rw [ofChars_eq_map hbasic, remove_map (agree_printable false) goffyRomSafeSlashToken hs,
      ofChars_eq_map fun c hc => hbasic c (mem_of_mem_remove hc)]
  have hphoneSlash : (remove (regex false) goffyRomSafeSlashToken (ofChars s)).contains slash = false := by
    rw [← Bool.not_eq_true, List.contains_iff_mem, hremove]
    intro hmem
    have hmem' := (toUInt16_mem_ofChars (d := '/') (by decide)).1 hmem
    rw [List.contains_iff_mem.2 hmem'] at hslash
    exact absurd hslash (by decide)
  rw [containsGoffyRomPathLikeText, hphoneBackslash, hphoneUrl, hphoneSlash]
  rfl

/-- Where the Hub finds no path, the phone finds none. -/
theorem containsGoffyRomPathLikeText_of_printable (hs : Printable s)
    (h : containsPathLikeText s = false) : containsGoffyRomPathLikeText (ofChars s) = false := by
  simp only [containsPathLikeText, Bool.or_eq_false_iff] at h
  obtain ⟨⟨hurl, hbackslash⟩, hslash⟩ := h
  have hacronyms : SlashesInAcronyms s := by
    by_contra hnot
    have hmem := slash_mem_removeFrom s.length (start s) hnot
    exact absurd (List.contains_iff_mem.2 hmem) (by rw [← remove, hslash]; exact Bool.false_ne_true)
  have hsame : remove (Python.re false) goffyRomSafeSlashToken s =
      remove (Python.re false) safeSlashToken s :=
    removeFrom_goffyRomSafeSlashToken s.length (start s) hacronyms
  exact containsGoffyRomPathLikeText_of_remove hs hurl (by simpa using hbackslash) (hsame ▸ hslash)

/-- A text without a path and a command, as the phone reads it. -/
theorem isSafeRomStatusField_of_display (hdisplay : IsDisplayText n s)
    (hpath : containsGoffyRomPathLikeText (ofChars s) = false)
    (hcommand : ∀ pattern ∈ commandTextPatterns, search (Python.re true) pattern s = false) :
    isSafeRomStatusField (ofChars s) n = true := by
  have hprintable := hdisplay.printable
  have hpatterns : goffyRomCommandTextPatterns = commandTextPatterns := rfl
  have hnone : (goffyRomCommandTextPatterns.any fun pattern =>
      search (regex true) pattern (ofChars s)) = false := by
    rw [hpatterns, List.any_eq_false]
    intro pattern hpattern
    rw [ofChars_eq_map fun c hc => lt_of_isPrintable (hprintable c hc),
      search_map (agree_printable true) pattern hprintable, hcommand pattern hpattern]
    exact Bool.false_ne_true
  rw [isSafeRomStatusField, hdisplay.isSafeDisplayField, hpath, hnone]
  rfl

/-- **Texts.** What is safe for the Hub is safe for the phone. -/
theorem isSafeRomStatusField_of_isSafe (h : IsSafe n s) : isSafeRomStatusField (ofChars s) n = true :=
  isSafeRomStatusField_of_display h.display
    (containsGoffyRomPathLikeText_of_printable h.display.printable h.noPath) h.noCommand

end GoffyHub.Rom
