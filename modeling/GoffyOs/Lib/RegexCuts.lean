import GoffyOs.Lib.Regex
import Mathlib.Data.List.Induction

/-!
# Regular expressions on a text that goes on

A text is cut and something is put after the cut. Where the pattern does not look for the end of the text
and no word goes on after the cut, the matches that stay before the cut are the same (`run_extend`).

* `search_append_eq`: a text has a match if the cut text has one, when no match may end behind the cut;
* `remove_append`: removing matches keeps what is behind the cut, when no match takes its characters.
-/

namespace Regex

variable {α : Type} {e : Engine α} {p q : Pattern} {s t w : List α}

/-- A pattern that does not look for the end of the text. -/
def Pattern.endless : Pattern → Bool
  | .finish => false
  | .seq p q | .alt p q => p.endless && q.endless
  | .star p | .group _ p => p.endless
  | .empty | .one _ | .boundary | .start => true

/-- The cursor is before the last characters of the text, as many as there are in `t`. -/
def Cursor.leaves (t : List α) (x : Cursor α) : Bool := t.length ≤ x.rest.length

theorem Cursor.leaves_extend (x : Cursor α) (t : List α) : (x.extend t).leaves t = true := by
  rw [Cursor.leaves, decide_eq_true_eq, length_extend]
  exact Nat.le_add_left _ _

/-- Later cursors leave no more. -/
theorem Cursor.leaves_of_moved {x y : Cursor α} (h : Moved w x y) (hx : x.leaves t = false) :
    y.leaves t = false := by
  rw [Cursor.leaves, decide_eq_false_iff_not] at hx ⊢
  have hlength := congrArg List.length h.1
  rw [List.length_append] at hlength
  omega

theorem filter_leaves_run {x : Cursor α} (hx : x.leaves t = false) :
    (run e p x).filter (·.leaves t) = [] := by
  rw [List.filter_eq_nil_iff]
  intro y hy
  obtain ⟨w, -, hmoved⟩ := lang_of_mem_run p x y hy
  rw [Cursor.leaves_of_moved hmoved hx]
  exact Bool.false_ne_true

theorem filter_leaves_loop {x : Cursor α} (hx : x.leaves t = false) (fuel : ℕ) :
    (loop (run e p) fuel x).filter (·.leaves t) = [] := by
  rw [List.filter_eq_nil_iff]
  intro y hy
  obtain ⟨w, -, hmoved⟩ := lang_of_mem_loop (lang_of_mem_run p) fuel x y hy
  rw [Cursor.leaves_of_moved hmoved hx]
  exact Bool.false_ne_true

/-- What is kept of all the results comes from what is kept before. -/
theorem filter_flatMap_of {β : Type} {keep : β → Bool} {f : β → List β}
    (hf : ∀ z, keep z = false → (f z).filter keep = []) (zs : List β) :
    (zs.flatMap f).filter keep = (zs.filter keep).flatMap fun z => (f z).filter keep := by
  induction zs with
  | nil => rfl
  | cons z zs ih =>
    rw [List.flatMap_cons, List.filter_append, ih]
    cases hz : keep z with
    | false => rw [hf z hz, List.filter_cons_of_neg (by rw [hz]; exact Bool.false_ne_true), List.nil_append]
    | true => rw [List.filter_cons_of_pos hz, List.flatMap_cons]

theorem loop_nil {round : Cursor α → List (Cursor α)} {x : Cursor α} (hx : x.rest = []) (fuel : ℕ) :
    loop round fuel x = [x] := by
  cases fuel with
  | zero => rfl
  | succ fuel =>
    have hnone : (round x).filter (fun y => decide (y.rest.length < x.rest.length)) = [] := by
      rw [List.filter_eq_nil_iff, hx]
      intro y _
      simp
    rw [loop, hnone]
    rfl

/-- The rounds of a loop that stay before the cut. -/
theorem loop_extend
    (hround : ∀ x : Cursor α, (run e p (x.extend t)).filter (·.leaves t) = (run e p x).map (·.extend t))
    (fuel : ℕ) : ∀ (fuel' : ℕ) (x : Cursor α), x.rest.length ≤ fuel → x.rest.length ≤ fuel' →
      (loop (run e p) fuel' (x.extend t)).filter (·.leaves t) =
        (loop (run e p) fuel x).map (·.extend t) := by
  have hstay (x : Cursor α) : [x.extend t].filter (·.leaves t) = [x.extend t] :=
    List.filter_cons_of_pos (x.leaves_extend t)
  -- where nothing is left before the cut, every round goes behind it
  have hend (x : Cursor α) (hx : x.rest = []) (fuel' : ℕ) :
      (loop (run e p) fuel' (x.extend t)).filter (·.leaves t) = [x.extend t] := by
    cases fuel' with
    | zero => exact hstay x
    | succ fuel' =>
      rw [loop, List.filter_append, hstay, filter_flatMap_of fun z hz => filter_leaves_loop hz fuel']
      have hnone : ((run e p (x.extend t)).filter fun y =>
          decide (y.rest.length < (x.extend t).rest.length)).filter (·.leaves t) = [] := by
        rw [List.filter_eq_nil_iff]
        intro y hy
        have hless := of_decide_eq_true (List.mem_filter.1 hy).2
        rw [length_extend, hx, List.length_nil, Nat.zero_add] at hless
        rw [Cursor.leaves, decide_eq_true_eq]
        exact Nat.not_le.2 hless
      rw [hnone]
      rfl
  induction fuel with
  | zero =>
    intro fuel' x hx _
    exact hend x (List.length_eq_zero_iff.1 (Nat.le_zero.1 hx)) fuel'
  | succ fuel ih =>
    intro fuel' x hx hx'
    by_cases hnil : x.rest = []
    · rw [hend x hnil, loop_nil hnil]
      rfl
    obtain ⟨fuel', rfl⟩ := Nat.exists_eq_succ_of_ne_zero
      (Nat.ne_of_gt (Nat.lt_of_lt_of_le (List.length_pos_iff.2 hnil) hx'))
    have hless : (fun z : Cursor α => decide (z.rest.length < (x.extend t).rest.length)) ∘
        (fun z : Cursor α => z.extend t) = fun z => decide (z.rest.length < x.rest.length) := by
      funext z
      simp only [Function.comp_apply, length_extend, Nat.add_lt_add_iff_right]
    have hrounds : ((run e p (x.extend t)).filter fun z =>
          decide (z.rest.length < (x.extend t).rest.length)).filter (·.leaves t) =
        ((run e p x).filter fun z => decide (z.rest.length < x.rest.length)).map (·.extend t) := by
      rw [List.filter_comm, hround, List.filter_map, hless]
    rw [loop, List.filter_append, hstay, filter_flatMap_of fun z hz => filter_leaves_loop hz fuel',
      hrounds, loop, List.map_append, List.flatMap_map, List.map_flatMap]
    refine congrArg (· ++ [x.extend t]) (List.flatMap_congr fun z hz => ?_)
    have hz := of_decide_eq_true (List.mem_filter.1 hz).2
    exact ih fuel' z (by omega) (by omega)

/-- **Cuts.** Where no word goes on behind the cut, the matches before it are those of the cut text. -/
theorem run_extend (hp : p.endless = true) (ht : t.head?.any e.isWord = false) :
    ∀ x : Cursor α, (run e p (x.extend t)).filter (·.leaves t) = (run e p x).map (·.extend t) := by
  have hstay (x : Cursor α) : [x.extend t].filter (·.leaves t) = [x.extend t] :=
    List.filter_cons_of_pos (x.leaves_extend t)
  induction p with
  | empty => exact hstay
  | one set =>
    intro x
    unfold run
    cases hrest : x.rest with
    | nil =>
      have hcut : (x.extend t).rest = t := by rw [Cursor.extend, hrest]; rfl
      rw [hcut]
      cases t with
      | nil => rfl
      | cons a t =>
        dsimp only
        split
        · refine List.filter_cons_of_neg ?_
          rw [Cursor.leaves, decide_eq_true_eq]
          exact Nat.not_succ_le_self _
        · rfl
    | cons a s =>
      have hcut : (x.extend t).rest = a :: (s ++ t) := by rw [Cursor.extend, hrest]; rfl
      rw [hcut]
      dsimp only
      split
      · exact hstay (x.step a s)
      · rfl
  | boundary =>
    intro x
    have hboundary : e.atBoundary (x.extend t) = e.atBoundary x := by
      have hnext : (x.extend t).rest.head?.any e.isWord = x.rest.head?.any e.isWord := by
        rw [Cursor.extend]
        cases x.rest with
        | nil => exact ht
        | cons a s => rfl
      rw [Engine.atBoundary, Engine.atBoundary, hnext]
      rfl
    unfold run
    rw [hboundary]
    split
    · exact hstay x
    · rfl
  | start =>
    intro x
    show List.filter _ (if x.before.isEmpty then [x.extend t] else []) =
      List.map _ (if x.before.isEmpty then [x] else [])
    split
    · exact hstay x
    · rfl
  | finish => cases hp
  | seq p q ihp ihq =>
    obtain ⟨hp, hq⟩ := Bool.and_eq_true_iff.1 hp
    intro x
    rw [run, run, filter_flatMap_of fun z hz => filter_leaves_run hz, ihp hp, List.flatMap_map,
      List.map_flatMap]
    exact List.flatMap_congr fun z _ => ihq hq z
  | alt p q ihp ihq =>
    obtain ⟨hp, hq⟩ := Bool.and_eq_true_iff.1 hp
    intro x
    rw [run, run, List.filter_append, ihp hp, ihq hq, List.map_append]
  | star p ih =>
    intro x
    rw [run, run]
    refine loop_extend (ih hp) _ _ x (Nat.le_refl _) ?_
    rw [length_extend]
    exact Nat.le_add_right _ _
  | group n p ih =>
    intro x
    have hkeep : ((fun y : Cursor α => y.leaves t) ∘ fun y : Cursor α => { y with
        groups := (n, (x.extend t).rest.take ((x.extend t).rest.length - y.rest.length)) :: y.groups }) =
        fun y => y.leaves t := rfl
    rw [run, run, List.filter_map, hkeep, ih hp, List.map_map, List.map_map]
    refine List.map_congr_left fun z hz => ?_
    obtain ⟨w, -, hmoved⟩ := lang_of_mem_run p x z hz
    -- the group takes the same word
    have hword : ∀ s : List α, (w ++ s).take ((w ++ s).length - s.length) = w := by simp
    have hextend : (x.extend t).rest = w ++ (z.extend t).rest := by
      rw [Cursor.extend, Cursor.extend, hmoved.1, List.append_assoc]
    simp only [Function.comp_apply]
    rw [hextend, hmoved.1, hword, hword]
    rfl

/-! ### Where a match ends -/

/-- A pattern that takes a character at least. -/
def Pattern.nonEmpty : Pattern → Bool
  | .one _ => true
  | .seq p q => p.nonEmpty || q.nonEmpty
  | .alt p q => p.nonEmpty && q.nonEmpty
  | .group _ p => p.nonEmpty
  | .empty | .boundary | .start | .finish | .star _ => false

theorem ne_nil_of_lang (hp : p.nonEmpty = true) (h : Lang e p w) : w ≠ [] := by
  induction p generalizing w with
  | empty | boundary | start | finish | star => cases hp
  | one set =>
    obtain ⟨a, rfl, -⟩ := h
    exact List.cons_ne_nil a []
  | seq p q ihp ihq =>
    obtain ⟨u, v, rfl, hu, hv⟩ := h
    rcases Bool.or_eq_true_iff.1 hp with hp | hq
    · exact List.append_ne_nil_of_left_ne_nil (ihp hp hu) v
    · exact List.append_ne_nil_of_right_ne_nil u (ihq hq hv)
  | alt p q ihp ihq =>
    obtain ⟨hp, hq⟩ := Bool.and_eq_true_iff.1 hp
    rcases h with h | h
    · exact ihp hp h
    · exact ihq hq h
  | group n p ih => exact ih hp h

/-- The last character of a match is in a set of the kind. -/
def Pattern.lastIn (good : CharSet → Bool) : Pattern → Bool
  | .one set => good set
  | .seq p q => q.lastIn good && (q.nonEmpty || p.lastIn good)
  | .alt p q => p.lastIn good && q.lastIn good
  | .star p | .group _ p => p.lastIn good
  | .empty | .boundary | .start | .finish => true

theorem exists_set_of_getLast? {good : CharSet → Bool} (hp : p.lastIn good = true) (h : Lang e p w)
    {a : α} (ha : w.getLast? = some a) : ∃ set, good set = true ∧ e.isIn set a = true := by
  induction p generalizing w with
  | empty | boundary | start | finish =>
    obtain rfl : w = [] := h
    cases ha
  | one set =>
    obtain ⟨b, rfl, hb⟩ := h
    obtain rfl : b = a := Option.some.inj ha
    exact ⟨set, hp, hb⟩
  | seq p q ihp ihq =>
    obtain ⟨u, v, rfl, hu, hv⟩ := h
    obtain ⟨hq, hpq⟩ := Bool.and_eq_true_iff.1 hp
    by_cases hnil : v = []
    · subst hnil
      rw [List.append_nil] at ha
      rcases Bool.or_eq_true_iff.1 hpq with hne | hp
      · exact absurd rfl (ne_nil_of_lang hne hv)
      · exact ihp hp hu ha
    · obtain ⟨b, hb⟩ := Option.isSome_iff_exists.1 (List.getLast?_isSome.2 hnil)
      rw [List.getLast?_append, hb, Option.some_or] at ha
      exact ihq hq hv (hb.trans ha)
  | alt p q ihp ihq =>
    obtain ⟨hp, hq⟩ := Bool.and_eq_true_iff.1 hp
    rcases h with h | h
    · exact ihp hp h ha
    · exact ihq hq h ha
  | star p ih =>
    obtain ⟨us, rfl, hus⟩ := h
    -- the last word that is not empty has the last character
    induction us using List.reverseRecOn with
    | nil => cases ha
    | append_singleton us u ihus =>
      rw [List.flatten_append, List.flatten_singleton] at ha
      by_cases hnil : u = []
      · rw [hnil, List.append_nil] at ha
        exact ihus (fun v hv => hus v (List.mem_append_left _ hv)) ha
      · obtain ⟨b, hb⟩ := Option.isSome_iff_exists.1 (List.getLast?_isSome.2 hnil)
        rw [List.getLast?_append, hb, Option.some_or] at ha
        exact ih hp (hus u (List.mem_append_right _ (List.mem_singleton_self u))) (hb.trans ha)
  | group n p ih => exact ih hp h ha

/-! ### Searching -/

/-- A text has a match when there is one at some place of it. -/
theorem findFrom_isSome_iff {before : List α} : (findFrom e p before s).isSome = true ↔
    ∃ u v y, s = u ++ v ∧ y ∈ run e p ⟨u.reverse ++ before, v, []⟩ := by
  induction s generalizing before with
  | nil =>
    rw [findFrom, List.isSome_head?]
    constructor
    · intro h
      obtain ⟨y, hy⟩ := List.exists_mem_of_ne_nil _ h
      exact ⟨[], [], y, rfl, hy⟩
    · rintro ⟨u, v, y, huv, hy⟩
      obtain ⟨rfl, rfl⟩ := List.append_eq_nil_iff.1 huv.symm
      exact List.ne_nil_of_mem hy
  | cons a s ih =>
    rw [findFrom]
    cases hfirst : (run e p ⟨before, a :: s, []⟩).head? with
    | some y => exact ⟨fun _ => ⟨[], a :: s, y, rfl, List.mem_of_mem_head? hfirst⟩, fun _ => rfl⟩
    | none =>
      rw [List.head?_eq_none_iff] at hfirst
      refine ih.trans ⟨?_, ?_⟩
      · rintro ⟨u, v, y, rfl, hy⟩
        refine ⟨a :: u, v, y, rfl, ?_⟩
        rw [List.reverse_cons, List.append_assoc]
        exact hy
      · rintro ⟨u, v, y, huv, hy⟩
        cases u with
        | nil =>
          obtain rfl : a :: s = v := huv
          rw [List.reverse_nil, List.nil_append, hfirst] at hy
          exact absurd hy List.not_mem_nil
        | cons b u =>
          obtain ⟨rfl, rfl⟩ := List.cons.inj huv
          refine ⟨u, v, y, rfl, ?_⟩
          rw [List.reverse_cons, List.append_assoc] at hy
          exact hy

theorem search_iff : search e p s = true ↔ ∃ u v y, s = u ++ v ∧ y ∈ run e p ⟨u.reverse, v, []⟩ := by
  have h := @findFrom_isSome_iff _ e p s []
  simp only [List.append_nil] at h
  exact h

/-- **Searching.** Where no match ends behind the cut, there is one exactly if the cut text has one. -/
theorem search_append_eq (hp : p.endless = true) (hne : p.nonEmpty = true) {good : CharSet → Bool}
    (hlast : p.lastIn good = true) (ht : t.head?.any e.isWord = false)
    (hgood : ∀ a ∈ t, ∀ set, good set = true → e.isIn set a = false) :
    search e p (s ++ t) = search e p s := by
  have hextend := run_extend (e := e) hp ht
  rw [Bool.eq_iff_iff, search_iff, search_iff]
  constructor
  · rintro ⟨u, v, y, huv, hy⟩
    obtain ⟨w, hw, hmoved⟩ := lang_of_mem_run p _ y hy
    have hv : v = w ++ y.rest := hmoved.1
    have hwne := ne_nil_of_lang hne hw
    -- the match ends before the cut, since its last character is none that is behind it
    have hleaves : y.leaves t = true := by
      rw [Cursor.leaves, decide_eq_true_eq]
      by_contra hshort
      obtain ⟨w', a, rfl⟩ : ∃ w' a, w = w' ++ [a] :=
        ⟨_, _, (List.dropLast_append_getLast hwne).symm⟩
      obtain ⟨set, hset, hin⟩ := exists_set_of_getLast? hlast hw List.getLast?_concat
      have hsuffix : a :: y.rest <:+ t := by
        refine @List.suffix_of_suffix_length_le _ _ (s ++ t) _ ⟨u ++ w', ?_⟩ (List.suffix_append s t) ?_
        · rw [huv, hv]
          simp
        · rw [List.length_cons]
          omega
      rw [hgood a (hsuffix.subset List.mem_cons_self) set hset] at hin
      cases hin
    have hlength := congrArg List.length huv
    rw [List.length_append, List.length_append] at hlength
    have hrest := congrArg List.length hv
    rw [List.length_append] at hrest
    rw [Cursor.leaves, decide_eq_true_eq] at hleaves
    obtain ⟨v', rfl⟩ : ∃ v', s = u ++ v' := by
      obtain ⟨v', hv'⟩ := List.prefix_of_prefix_length_le (List.prefix_append u v)
        (huv ▸ List.prefix_append s t) (by omega)
      exact ⟨v', hv'.symm⟩
    rw [List.append_assoc, List.append_cancel_left_eq] at huv
    have hmem : y ∈ (run e p ((⟨u.reverse, v', []⟩ : Cursor α).extend t)).filter (·.leaves t) := by
      refine List.mem_filter.2 ⟨?_, decide_eq_true hleaves⟩
      rw [Cursor.extend, huv]
      exact hy
    rw [hextend] at hmem
    obtain ⟨z, hz, -⟩ := List.mem_map.1 hmem
    exact ⟨u, v', z, rfl, hz⟩
  · rintro ⟨u, v, y, rfl, hy⟩
    have hmem := List.mem_map_of_mem (f := (·.extend t)) hy
    rw [← hextend] at hmem
    exact ⟨u, v ++ t, y.extend t, List.append_assoc u v t, (List.mem_filter.1 hmem).1⟩

/-! ### Removing -/

/-- The characters are in none of the sets of the pattern. -/
def Outside (e : Engine α) (p : Pattern) (t : List α) : Prop :=
  ∀ a ∈ t, ∀ set ∈ p.sets, e.isIn set a = false

instance (e : Engine α) (p : Pattern) (t : List α) : Decidable (Outside e p t) :=
  List.decidableBAll _ t

/-- A match stops before such characters. -/
theorem leaves_of_outside (ht : Outside e p t) {x y : Cursor α} (hy : y ∈ run e p (x.extend t)) :
    y.leaves t = true := by
  obtain ⟨w, hw, hmoved⟩ := lang_of_mem_run p _ y hy
  rw [Cursor.leaves, decide_eq_true_eq]
  by_contra hshort
  have hrest : x.rest ++ t = w ++ y.rest := hmoved.1
  -- the last character of the match is behind the cut
  rcases List.append_eq_append_iff.1 hrest with ⟨r, rfl, ht'⟩ | ⟨r, -, hy'⟩
  · cases r with
    | nil =>
      obtain rfl : t = y.rest := ht'
      exact hshort (Nat.le_refl _)
    | cons a r =>
      obtain ⟨set, hset, hin⟩ := exists_set_of_lang hw a (List.mem_append_right _ List.mem_cons_self)
      rw [ht a (ht' ▸ List.mem_append_left _ List.mem_cons_self) set hset] at hin
      cases hin
  · refine hshort ?_
    rw [hy', List.length_append]
    exact Nat.le_add_left _ _

theorem run_extend_of_outside (hp : p.endless = true) (hword : t.head?.any e.isWord = false)
    (ht : Outside e p t) (x : Cursor α) : run e p (x.extend t) = (run e p x).map (·.extend t) := by
  rw [← run_extend hp hword x]
  exact (List.filter_eq_self.2 fun y hy => leaves_of_outside ht hy).symm

theorem removeFrom_of_outside (fuel : ℕ) :
    ∀ x : Cursor α, Outside e p x.rest → removeFrom e p fuel x = x.rest := by
  induction fuel with
  | zero => exact fun x _ => rfl
  | succ fuel ih =>
    intro x hx
    rw [removeFrom]
    cases hrest : x.rest with
    | nil => rfl
    | cons a s =>
      have hs : Outside e p s := fun b hb => hx b (hrest ▸ List.mem_cons_of_mem a hb)
      have hkeep : a :: removeFrom e p fuel ⟨a :: x.before, s, []⟩ = a :: s :=
        congrArg (a :: ·) (ih ⟨a :: x.before, s, []⟩ hs)
      cases hfirst : (run e p x).head? with
      | none => exact hkeep
      | some y =>
        dsimp only
        split
        case isTrue hless =>
          obtain ⟨w, hw, hmoved, -⟩ := lang_of_mem_run p x y (List.mem_of_mem_head? hfirst)
          rw [hrest] at hmoved
          cases w with
          | nil =>
            rw [List.nil_append] at hmoved
            rw [hmoved] at hless
            exact absurd hless (Nat.lt_irrefl _)
          | cons b w =>
            obtain ⟨set, hset, hin⟩ := exists_set_of_lang hw b List.mem_cons_self
            obtain ⟨rfl, -⟩ := List.cons.inj hmoved
            rw [hx a (hrest ▸ List.mem_cons_self) set hset] at hin
            cases hin
        case isFalse => exact hkeep

theorem removeFrom_extend (hp : p.endless = true) (hword : t.head?.any e.isWord = false)
    (ht : Outside e p t) (fuel : ℕ) :
    ∀ (fuel' : ℕ) (x : Cursor α), x.rest.length ≤ fuel → (x.extend t).rest.length ≤ fuel' →
      removeFrom e p fuel' (x.extend t) = removeFrom e p fuel x ++ t := by
  induction fuel with
  | zero =>
    intro fuel' x hx _
    have hrest : x.rest = [] := List.length_eq_zero_iff.1 (Nat.le_zero.1 hx)
    have hcut : (x.extend t).rest = t := by rw [Cursor.extend, hrest]; rfl
    rw [removeFrom_of_outside fuel' _ (by rw [hcut]; exact ht), hcut, removeFrom, hrest]
    rfl
  | succ fuel ih =>
    intro fuel' x hx hx'
    cases hrest : x.rest with
    | nil =>
      have hcut : (x.extend t).rest = t := by rw [Cursor.extend, hrest]; rfl
      rw [removeFrom_of_outside fuel' _ (by rw [hcut]; exact ht), hcut, removeFrom, hrest]
      rfl
    | cons a s =>
      have hcut : (x.extend t).rest = a :: (s ++ t) := by rw [Cursor.extend, hrest]; rfl
      rw [hrest, List.length_cons] at hx
      rw [hcut, List.length_cons] at hx'
      obtain ⟨fuel', rfl⟩ := Nat.exists_eq_succ_of_ne_zero (by omega : fuel' ≠ 0)
      have hkeep := ih fuel' ⟨a :: x.before, s, []⟩ (Nat.le_of_succ_le_succ hx)
        (Nat.le_of_succ_le_succ hx')
      rw [removeFrom, removeFrom, run_extend_of_outside hp hword ht, List.head?_map, hcut, hrest]
      cases hfirst : (run e p x).head? with
      | none => exact congrArg (a :: ·) hkeep
      | some y =>
        obtain ⟨w, -, hmoved, -⟩ := lang_of_mem_run p x y (List.mem_of_mem_head? hfirst)
        have hlength := congrArg List.length hmoved
        rw [hrest, List.length_append, List.length_cons] at hlength
        rw [Option.map_some]
        dsimp only
        rw [length_extend, List.length_cons, List.length_cons, List.length_append]
        by_cases hless : y.rest.length < s.length + 1
        · rw [if_pos hless, if_pos (by omega)]
          refine ih fuel' ⟨y.before, y.rest, []⟩ (by dsimp only; omega) ?_
          rw [length_extend]
          rw [List.length_append] at hx'
          dsimp only
          omega
        · rw [if_neg hless, if_neg (by omega)]
          exact congrArg (a :: ·) hkeep

/-- **Removing.** What no match takes stays behind the cut. -/
theorem remove_append (hp : p.endless = true) (hword : t.head?.any e.isWord = false)
    (ht : Outside e p t) : remove e p (s ++ t) = remove e p s ++ t := by
  have hlength : ((start s).extend t).rest.length ≤ (s ++ t).length := Nat.le_refl _
  exact removeFrom_extend hp hword ht s.length (s ++ t).length (start s) (Nat.le_refl _) hlength

end Regex
