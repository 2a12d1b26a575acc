import Registrar.Answer.Group
import Registrar.Proofs.FirstOccurrences

namespace Registrar

namespace Groups

variable (tuple : Record → List (Option Cell))

def collect (records : List Record) : Groups :=
  records.foldl (fun groups r => groups.insert (tuple r) r) empty

theorem collect_append_singleton (records : List Record) (r : Record) :
    collect tuple (records ++ [r]) = (collect tuple records).insert (tuple r) r :=
  List.foldl_concat ..

theorem get_collect (records : List Record) (t : List (Option Cell)) :
    (collect tuple records).get t = records.filter fun r => tuple r = t := by
  induction records using List.reverseRecOn with
  | nil => simp [collect, empty, get]
  | append_singleton records r ih =>
      rw [collect_append_singleton, get_insert, ih, List.filter_append]
      by_cases h : tuple r = t <;> simp [h]

theorem mem_members_collect (records : List Record) (t : List (Option Cell)) :
    t ∈ (collect tuple records).members ↔ t ∈ records.map tuple := by
  induction records using List.reverseRecOn with
  | nil => simp [collect, empty]
  | append_singleton records r ih =>
      rw [collect_append_singleton, mem_members_insert, ih, List.map_append, List.mem_append,
        List.map_singleton, List.mem_singleton, or_comm, eq_comm]

theorem tuples_collect (records : List Record) :
    (collect tuple records).tuples.reverse = (records.map tuple).eraseDups := by
  induction records using List.reverseRecOn with
  | nil => rfl
  | append_singleton records r ih =>
      rw [collect_append_singleton, tuples_insert, List.map_append, List.map_singleton]
      have hmem := mem_members_collect tuple records (tuple r)
      split
      · next h => rw [List.eraseDups_append_singleton_of_mem (hmem.mp h), ih]
      · next h =>
        rw [List.eraseDups_append_singleton_of_not_mem (mt hmem.mpr h), List.reverse_cons, ih]

theorem toList_collect (records : List Record) :
    (collect tuple records).toList =
      (records.map tuple).eraseDups.map fun t => records.filter fun r => tuple r = t := by
  rw [toList, tuples_collect]
  exact List.map_congr_left fun t _ => get_collect tuple records t

variable {tuple}

theorem flatten_filter_perm {tuples : List (List (Option Cell))} (hnodup : tuples.Nodup)
    {records : List Record} (hcover : ∀ r ∈ records, tuple r ∈ tuples) :
    (tuples.map fun t => records.filter fun r => tuple r = t).flatten.Perm records := by
  induction tuples generalizing records with
  | nil =>
      cases records with
      | nil => exact .refl _
      | cons r => exact absurd (hcover r List.mem_cons_self) List.not_mem_nil
  | cons t rest ih =>
      obtain ⟨hfresh, hnodup⟩ := List.nodup_cons.mp hnodup
      have hothers : ∀ u ∈ rest, (records.filter fun r => tuple r = u) =
          (records.filter fun r => !decide (tuple r = t)).filter fun r => tuple r = u := by
        intro u hu
        rw [List.filter_filter]
        refine List.filter_congr fun r _ => ?_
        have hne : u ≠ t := fun heq => hfresh (heq ▸ hu)
        by_cases h : tuple r = u <;> simp [h, hne]
      rw [List.map_cons, List.flatten_cons, List.map_congr_left hothers]
      have hrest := @ih hnodup (records.filter fun r => !decide (tuple r = t)) ?_
      · exact (hrest.append_left _).trans (List.filter_append_perm _ records)
      · intro r hr
        obtain ⟨hmem, hne⟩ := List.mem_filter.mp hr
        rcases List.mem_cons.mp (hcover r hmem) with heq | hin
        · simp [heq] at hne
        · exact hin

variable (tuple)

def firsts (records : List Record) : List Record :=
  (records.map tuple).eraseDups.filterMap fun t => records.find? fun r => tuple r = t

theorem mem_of_mem_firsts {records : List Record} {r : Record} (h : r ∈ firsts tuple records) :
    r ∈ records := by
  obtain ⟨t, _, hfind⟩ := List.mem_filterMap.mp h
  exact List.mem_of_find?_eq_some hfind

theorem find?_append_singleton {records : List Record} {t : List (Option Cell)}
    (h : t ∈ records.map tuple) (r : Record) :
    ((records ++ [r]).find? fun s => tuple s = t) = records.find? fun s => tuple s = t := by
  obtain ⟨s, hs, ht⟩ := List.mem_map.mp h
  have hsome : (records.find? fun s => tuple s = t).isSome :=
    List.find?_isSome.mpr ⟨s, hs, decide_eq_true ht⟩
  rw [List.find?_append]
  exact Option.or_of_isSome hsome

theorem firsts_append_singleton (records : List Record) (r : Record) :
    firsts tuple (records ++ [r]) =
      if tuple r ∈ records.map tuple then firsts tuple records
      else firsts tuple records ++ [r] := by
  have hold : (records.map tuple).eraseDups.filterMap
      (fun t => (records ++ [r]).find? fun s => tuple s = t) = firsts tuple records :=
    List.filterMap_congr fun t ht => find?_append_singleton tuple (List.mem_eraseDups.mp ht) r
  rw [firsts, List.map_append, List.map_singleton]
  split
  · next h => rw [List.eraseDups_append_singleton_of_mem h, hold]
  · next h =>
    have hnone : (records.find? fun s => tuple s = tuple r) = none := by
      rw [List.find?_eq_none]
      exact fun s hs heq => h (List.mem_map.mpr ⟨s, hs, of_decide_eq_true heq⟩)
    rw [List.eraseDups_append_singleton_of_not_mem h, List.filterMap_append, hold]
    simp [List.find?_append, hnone]

theorem firsts_pairwise (records : List Record) :
    (firsts tuple records).Pairwise fun r s => records.idxOf r < records.idxOf s := by
  induction records using List.reverseRecOn with
  | nil => exact .nil
  | append_singleton records r ih =>
      have hold : (firsts tuple records).Pairwise
          fun s u => (records ++ [r]).idxOf s < (records ++ [r]).idxOf u := by
        refine ih.imp_of_mem fun hs hu hlt => ?_
        rwa [List.idxOf_append_of_mem (mem_of_mem_firsts tuple hs),
          List.idxOf_append_of_mem (mem_of_mem_firsts tuple hu)]
      rw [firsts_append_singleton]
      split
      · exact hold
      · next h =>
        refine List.pairwise_append.mpr ⟨hold, List.pairwise_singleton _ _, ?_⟩
        intro s hs u hu
        have hfresh : r ∉ records := fun hr => h (List.mem_map_of_mem hr)
        have hmem := mem_of_mem_firsts tuple hs
        rw [List.mem_singleton.mp hu, List.idxOf_append_of_mem hmem,
          List.idxOf_append_of_notMem hfresh]
        exact Nat.lt_add_right _ (List.idxOf_lt_length_of_mem hmem)

end Groups

namespace Grouping

theorem partition_eq (g : Grouping) (records : List Record) :
    g.partition records =
      (records.map g.tuple).eraseDups.map fun t => records.filter fun r => g.tuple r = t :=
  Groups.toList_collect g.tuple records

theorem mem_partition {g : Grouping} {records group : List Record}
    (h : group ∈ g.partition records) : group ≠ [] ∧ ∀ r ∈ group, r ∈ records := by
  rw [partition_eq, List.mem_map] at h
  obtain ⟨t, ht, rfl⟩ := h
  obtain ⟨r, hr, rfl⟩ := List.mem_map.mp (List.mem_eraseDups.mp ht)
  constructor
  · exact List.ne_nil_of_mem (List.mem_filter.mpr ⟨hr, decide_eq_true rfl⟩)
  · exact fun s hs => (List.mem_filter.mp hs).1

end Grouping

end Registrar
