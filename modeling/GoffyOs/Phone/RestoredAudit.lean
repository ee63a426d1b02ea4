import GoffyOs.Phone.TaskTimelineRuns

/-!
# The restored audit in the timeline

`mergeRestoredAudit` puts the restored entries before those of the timeline, in a map that keeps the place
of an id that it has already, and cuts the result down to its newest items. An entry of the timeline that
is also restored stands at the place of the restored one then, where it is out of order or cut off.
-/

namespace GoffyPhone

open Python (UUID)
open Recent Timeline

variable {γ : Type}

/-- The ids of the restored entries, each at its first place. -/
def restoredIds (restored : List (TaskTimelineEntry γ)) : List UUID := (restored.map idOf).eraseDups

/-- What a merge should keep: every entry in its order, and at most fifty entries of distinct tasks. -/
structure KeepsEntries (s s' : TaskTimelineState γ) : Prop where
  sublist : s.entries.Sublist s'.entries
  length_le : s'.entries.length ≤ maxTimelineItems
  nodup : (s'.entries.map idOf).Nodup

/-- The entries that are also restored are the first ones of the timeline, in the order in which they are
restored, and from the first of them on there are at most fifty tasks. -/
structure InPlace (s : TaskTimelineState γ) (restored : List (TaskTimelineEntry γ)) : Prop where
  first : s.entries.map idOf =
    (s.entries.map idOf).filter (· ∈ restoredIds restored) ++
      (s.entries.map idOf).filter (· ∉ restoredIds restored)
  order : ((s.entries.map idOf).filter (· ∈ restoredIds restored)).Sublist (restoredIds restored)
  count : ((restoredIds restored).dropWhile (· ∉ s.entries.map idOf)).length +
    ((s.entries.map idOf).filter (· ∉ restoredIds restored)).length ≤ maxTimelineItems

section

variable {s s' : TaskTimelineState γ} {restored : List (TaskTimelineEntry γ)}

theorem nodup_restoredIds : (restoredIds restored).Nodup := by
  unfold restoredIds
  rw [← Dict.keys_foldl_set_empty]
  exact Dict.nodup _

/-- The ids after the merge, before it is cut down. -/
theorem map_idOf_merged (hnodup : (s.entries.map idOf).Nodup) :
    (mergedEntries restored s.entries).map idOf =
      restoredIds restored ++ (s.entries.map idOf).filter (· ∉ restoredIds restored) := by
  rw [map_idOf_mergedEntries, List.foldl_append, Dict.keys_foldl_set hnodup,
    Dict.keys_foldl_set_empty]
  rfl

/-- The merged map has the entry of the timeline for each of its tasks. -/
theorem eq_of_mem_merged (hnodup : (s.entries.map idOf).Nodup) {x y : TaskTimelineEntry γ}
    (hx : x ∈ s.entries) (hy : y ∈ mergedEntries restored s.entries) (hid : idOf x = idOf y) : x = y := by
  have hylast := mem_mergedEntries.1 hy
  obtain ⟨before, after, heq, -, hafter⟩ := hylast
  -- the last entry with this id is in the timeline, where it is the only one
  have hmem : y ∈ s.entries := by
    rcases List.append_eq_append_iff.1 heq with ⟨mid, -, hmid⟩ | ⟨mid, -, hmid⟩
    · rw [hmid]
      exact List.mem_append_right _ List.mem_cons_self
    · cases mid with
      | nil =>
        rw [← List.nil_append s.entries, ← hmid]
        exact List.mem_cons_self
      | cons z mid =>
        obtain ⟨rfl, htail⟩ := List.cons.inj hmid
        exact absurd hid (hafter x (htail ▸ List.mem_append_right _ hx))
  exact List.inj_on_of_nodup_map hnodup hx hmem hid

/-- Entries that are found by their ids are in an order by their ids. -/
theorem sublist_of_map_idOf {l l' : List (TaskTimelineEntry γ)}
    (hid : ∀ x ∈ l, ∀ y ∈ l', idOf x = idOf y → x = y) (h : (l.map idOf).Sublist (l'.map idOf)) :
    l.Sublist l' := by
  obtain ⟨part, hpart, hmap⟩ := List.sublist_map_iff.1 h
  have heq : l = part := by
    refine List.ext_getElem (by simpa using congrArg List.length hmap) fun i hi hi' => ?_
    refine hid _ (List.getElem_mem hi) _ (hpart.subset (List.getElem_mem hi')) ?_
    have hget := List.getElem_of_eq hmap (i := i) (by rwa [List.length_map])
    rwa [List.getElem_map, List.getElem_map] at hget
  exact heq ▸ hpart

/-- The order of the entries after the merge is that of their ids. -/
theorem sublist_merge_iff (hnodup : (s.entries.map idOf).Nodup) :
    s.entries.Sublist (s.merge restored).entries ↔
      (s.entries.map idOf).Sublist (takeLast maxTimelineItems (restoredIds restored ++
        (s.entries.map idOf).filter (· ∉ restoredIds restored))) := by
  have hids : (s.merge restored).entries.map idOf = takeLast maxTimelineItems (restoredIds restored ++
      (s.entries.map idOf).filter (· ∉ restoredIds restored)) := by
    show (takeLast _ _).map idOf = _
    rw [map_takeLast, map_idOf_merged hnodup]
  rw [← hids]
  refine ⟨fun h => h.map idOf, sublist_of_map_idOf fun x hx y hy hid => ?_⟩
  exact eq_of_mem_merged hnodup hx (mem_of_mem_takeLast hy) hid

/-- **The restored audit.** A merge keeps the entries of the timeline exactly if those that are restored
too are in their places. -/
theorem mergeRestoredAudit_keeps_iff (hlength : s.entries.length ≤ maxTimelineItems)
    (hnodup : (s.entries.map idOf).Nodup) (h : s.mergeRestoredAudit restored = .ok s') :
    KeepsEntries s s' ↔ InPlace s restored := by
  unfold TaskTimelineState.mergeRestoredAudit at h
  split at h
  case isFalse => cases h
  case isTrue =>
    obtain rfl := Except.ok.inj h
    have hiff := @sublist_takeLast_iff _ _ _ (s.entries.map idOf) _
      (@nodup_restoredIds _ restored) ((List.length_map idOf).trans_le hlength)
    rw [← sublist_merge_iff hnodup] at hiff
    constructor
    · intro hkeeps
      obtain ⟨hfirst, horder, hcount⟩ := hiff.1 hkeeps.sublist
      exact ⟨hfirst, horder, hcount⟩
    · intro hplace
      refine ⟨hiff.2 ⟨hplace.first, hplace.order, hplace.count⟩, length_takeLast_le _ _, ?_⟩
      have hmerged := nodup_idOf_mergedEntries restored s.entries
      exact hmerged.sublist ((takeLast_suffix _ _).sublist.map idOf)

/-- Entries of other tasks do not disturb the timeline. -/
theorem inPlace_of_disjoint (hlength : s.entries.length ≤ maxTimelineItems)
    (h : ∀ x ∈ s.entries, ∀ y ∈ restored, idOf x ≠ idOf y) : InPlace s restored := by
  have hnot : ∀ id ∈ s.entries.map idOf, id ∉ restoredIds restored := by
    intro id hid hmem
    obtain ⟨x, hx, rfl⟩ := List.mem_map.1 hid
    obtain ⟨y, hy, heq⟩ := List.mem_map.1 (List.mem_eraseDups.1 hmem)
    exact h x hx y hy heq.symm
  have hshared : (s.entries.map idOf).filter (· ∈ restoredIds restored) = [] :=
    List.filter_eq_nil_iff.2 fun id hid => by simpa using hnot id hid
  have hothers : (s.entries.map idOf).filter (· ∉ restoredIds restored) = s.entries.map idOf :=
    List.filter_eq_self.2 fun id hid => decide_eq_true (hnot id hid)
  have hdrop : (restoredIds restored).dropWhile (· ∉ s.entries.map idOf) = [] := by
    refine List.dropWhile_eq_nil_iff.2 fun id hid => decide_eq_true fun hmem => hnot id hmem hid
  refine ⟨by rw [hshared, hothers, List.nil_append], by rw [hshared]; exact List.nil_sublist _, ?_⟩
  rw [hdrop, hothers, List.length_nil, Nat.zero_add, List.length_map]
  exact hlength

end

section Example

/-- A timeline of two tasks. -/
def twoTasks : TaskTimelineState ContentType := ⟨none, [batteryAudit 1, batteryAudit 2]⟩

/-- A third task is restored, and the timeline keeps its own. -/
theorem other_task_is_merged : KeepsEntries twoTasks (twoTasks.merge [batteryAudit 3]) :=
  (@mergeRestoredAudit_keeps_iff _ _ _ [batteryAudit 3] (by decide) (by decide) rfl).2
    (inPlace_of_disjoint (by decide) (by decide))

/-- The second task is restored too, and moves before the first; and where fifty tasks are there and
another one is restored with the last of them, this one is lost. -/
theorem restored_task_moves :
    (twoTasks.mergeRestoredAudit [batteryAudit 2] = .ok (twoTasks.merge [batteryAudit 2]) ∧
      ¬ KeepsEntries twoTasks (twoTasks.merge [batteryAudit 2])) ∧
    ∃ s : TaskTimelineState ContentType, s.entries.length ≤ maxTimelineItems ∧
      (s.entries.map idOf).Nodup ∧
      ∃ s', s.mergeRestoredAudit [batteryAudit 49, batteryAudit 100] = .ok s' ∧
        (49 : UUID) ∈ s.entries.map idOf ∧ (49 : UUID) ∉ s'.entries.map idOf := by
  refine ⟨⟨rfl, fun h => ?_⟩,
    ⟨none, (List.range 50).map fun i => batteryAudit (Fin.ofNat _ i)⟩, ?_, ?_, _, rfl, ?_, ?_⟩
  · have hids : ([1, 2] : List UUID).Sublist [2, 1] := h.sublist.map idOf
    revert hids
    decide
  all_goals decide +kernel

end Example

end GoffyPhone
