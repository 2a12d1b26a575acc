import Mathlib.Data.List.Perm.Basic
import Mathlib.Data.List.Sort

namespace List

variable {α β : Type}

structure StableSort (cmp : α → α → Ordering) (xs sorted : List α) : Prop where
  perm : sorted.Perm xs
  ascending : sorted.Pairwise fun a b => (cmp a b).isLE
  stable : ∀ x ∈ xs, (sorted.filter fun y => cmp x y = .eq) = xs.filter fun y => cmp x y = .eq

theorem StableSort.map (cmp : α → α → Ordering) (f : β → α) {xs sorted : List β}
    (h : StableSort (fun a b => cmp (f a) (f b)) xs sorted) :
    StableSort cmp (xs.map f) (sorted.map f) := by
  constructor
  case perm => exact h.perm.map f
  case ascending => exact pairwise_map.mpr h.ascending
  case stable =>
    rw [forall_mem_map]
    intro x hx
    rw [filter_map, filter_map]
    exact congrArg (List.map f) (h.stable x hx)

theorem StableSort.of_map {cmp : α → α → Ordering} {f : β → α} (hf : Function.Injective f)
    {xs sorted : List β} (h : StableSort cmp (xs.map f) (sorted.map f)) :
    StableSort (fun a b => cmp (f a) (f b)) xs sorted := by
  constructor
  case perm => exact (map_perm_map_iff hf).mp h.perm
  case ascending => exact pairwise_map.mp h.ascending
  case stable =>
    intro x hx
    have hstable := h.stable (f x) (mem_map_of_mem hx)
    rw [filter_map, filter_map] at hstable
    exact map_injective_iff.mpr hf hstable

theorem StableSort.of_sublist {cmp : α → α → Ordering} {xs sorted : List α}
    (perm : sorted.Perm xs) (ascending : sorted.Pairwise fun a b => (cmp a b).isLE)
    (kept : ∀ x, (xs.filter fun y => cmp x y = .eq).Sublist sorted) :
    StableSort cmp xs sorted := by
  refine ⟨perm, ascending, fun x _ => ?_⟩
  have hsub := (kept x).filter fun y => cmp x y = .eq
  rw [filter_filter] at hsub
  simp only [Bool.and_self] at hsub
  exact (hsub.eq_of_length (perm.filter _).length_eq.symm).symm

section

variable (cmp : α → α → Ordering) [Std.TransCmp cmp]

theorem pairwise_filter_eq (x : α) (xs : List α) :
    (xs.filter fun y => cmp x y = .eq).Pairwise fun a b => cmp a b = .eq := by
  refine pairwise_of_forall_mem_list fun a ha b hb => ?_
  have hxa : cmp x a = .eq := of_decide_eq_true (mem_filter.mp ha).2
  have hxb : cmp x b = .eq := of_decide_eq_true (mem_filter.mp hb).2
  exact Std.TransCmp.eq_trans (Std.OrientedCmp.eq_symm hxa) hxb

theorem isLE_total (a b : α) : (cmp a b).isLE ∨ (cmp b a).isLE := by
  rw [← @Std.OrientedCmp.isGE_iff_isLE α cmp _ a b]
  cases cmp a b <;> decide

theorem stableSort_mergeSort (xs : List α) :
    StableSort cmp xs (xs.mergeSort fun a b => (cmp a b).isLE) := by
  have htrans : ∀ a b c, (cmp a b).isLE → (cmp b c).isLE → (cmp a c).isLE :=
    fun _ _ _ => Std.TransCmp.isLE_trans
  have htotal : ∀ a b, ((cmp a b).isLE || (cmp b a).isLE) = true := by
    intro a b
    rw [Bool.or_eq_true]
    exact isLE_total cmp a b
  refine .of_sublist (mergeSort_perm xs _) (pairwise_mergeSort htrans htotal xs) fun x => ?_
  refine sublist_mergeSort htrans htotal ?_ filter_sublist
  exact (pairwise_filter_eq cmp x xs).imp fun h => by simp [h]

theorem stableSort_insertionSort (xs : List α) :
    StableSort cmp xs (xs.reverse.insertionSort fun a b => (cmp a b).isGE).reverse := by
  have : Std.Total fun a b => ((cmp a b).isGE : Prop) := by
    constructor
    intro a b
    rw [Std.OrientedCmp.isGE_iff_isLE, Std.OrientedCmp.isGE_iff_isLE]
    exact isLE_total cmp b a
  have : IsTrans α fun a b => (cmp a b).isGE := ⟨fun _ _ _ => Std.TransCmp.isGE_trans⟩
  refine .of_sublist ?_ ?_ fun x => ?_
  · exact (reverse_perm _).trans ((perm_insertionSort _ _).trans (reverse_perm xs))
  · rw [pairwise_reverse]
    exact (pairwise_insertionSort _ _).imp Std.OrientedCmp.isGE_iff_isLE.mp
  · have hclass :
        (xs.filter fun y => cmp x y = .eq).reverse.Pairwise fun a b => (cmp a b).isGE := by
      rw [pairwise_reverse]
      refine (pairwise_filter_eq cmp x xs).imp fun h => ?_
      rw [Std.OrientedCmp.isGE_iff_isLE, h]
      rfl
    have hsub := sublist_insertionSort hclass filter_sublist.reverse
    rwa [← reverse_sublist, reverse_reverse] at hsub

end

theorem StableSort.head_eq {cmp : α → α → Ordering} [Std.TransCmp cmp] {x y : α} {xs ys : List α}
    (h : StableSort cmp (x :: xs) (y :: ys))
    (ascending : (x :: xs).Pairwise fun a b => (cmp a b).isLE) : y = x := by
  have hleast {z w : α} {rest : List α} (hrest : (z :: rest).Pairwise fun a b => (cmp a b).isLE)
      (hw : w ∈ z :: rest) : (cmp z w).isLE := by
    rcases List.mem_cons.mp hw with rfl | hw
    · exact Std.ReflCmp.isLE_rfl
    · exact rel_of_pairwise_cons hrest hw
  have hxy : (cmp x y).isLE := hleast ascending (h.perm.mem_iff.mp mem_cons_self)
  have hyx : (cmp y x).isLE := hleast h.ascending (h.perm.mem_iff.mpr mem_cons_self)
  have heq : cmp x y = .eq := Std.OrientedCmp.isLE_antisymm hxy hyx
  -- both are the first of their class, and a stable sort keeps the order in each class
  have hclass := h.stable x mem_cons_self
  have hself : cmp x x = .eq := Std.ReflCmp.compare_self
  simp only [filter_cons, heq, hself, decide_true, if_true, cons.injEq] at hclass
  exact hclass.1

theorem StableSort.eq_of_ascending {cmp : α → α → Ordering} [Std.TransCmp cmp] {xs sorted : List α}
    (h : StableSort cmp xs sorted) (ascending : xs.Pairwise fun a b => (cmp a b).isLE) :
    sorted = xs := by
  induction xs generalizing sorted with
  | nil => exact h.perm.eq_nil
  | cons x xs ih =>
      cases sorted with
      | nil => exact h.perm.nil_eq
      | cons y ys =>
          cases h.head_eq ascending
          refine congrArg (x :: ·) (ih ⟨h.perm.cons_inv, h.ascending.of_cons, ?_⟩ ascending.of_cons)
          intro z hz
          have hclass := h.stable z (mem_cons_of_mem x hz)
          rw [filter_cons, filter_cons] at hclass
          split at hclass
          · exact (cons.inj hclass).2
          · exact hclass

theorem StableSort.unique {cmp : α → α → Ordering} [Std.TransCmp cmp] {xs as bs : List α}
    (ha : StableSort cmp xs as) (hb : StableSort cmp xs bs) : bs = as := by
  refine StableSort.eq_of_ascending ⟨hb.perm.trans ha.perm.symm, hb.ascending, ?_⟩ ha.ascending
  intro x hx
  have hmem := ha.perm.mem_iff.mp hx
  exact (hb.stable x hmem).trans (ha.stable x hmem).symm

end List
