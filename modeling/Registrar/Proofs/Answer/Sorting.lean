import Registrar.Proofs.Answer.Comparison
import Registrar.Proofs.StableSort

namespace Registrar.Order

theorem place_perm (order : Order) (row : Row) (rows : List Row) :
    (order.place row rows).Perm (row :: rows) := by
  induction rows with
  | nil => exact .refl _
  | cons last rest ih =>
      rw [place]
      split
      · exact (ih.cons last).trans (.swap row last rest)
      · exact .refl _

theorem foldl_place_perm (order : Order) (rows descending : List Row) :
    (rows.foldl (fun descending row => order.place row descending) descending).Perm
      (rows ++ descending) := by
  induction rows generalizing descending with
  | nil => exact .refl _
  | cons row rest ih =>
      rw [List.foldl_cons]
      have hplaced := ((order.place_perm row descending).append_left rest)
      exact ((ih _).trans hplaced).trans List.perm_middle

theorem sort_perm (order : Order) (rows : List Row) : (order.sort rows).Perm rows := by
  unfold sort
  split
  · have hplaced := order.foldl_place_perm rows []
    rw [List.append_nil] at hplaced
    exact (List.reverse_perm _).trans hplaced
  · exact List.mergeSort_perm rows _

theorem place_eq_orderedInsert (order : Order) (row : Row) (rows : List Row) :
    order.place row rows = rows.orderedInsert (fun a b => (order.compareRows a b).isGE) row := by
  induction rows with
  | nil => rfl
  | cons last rest ih =>
      rw [place, List.orderedInsert_cons, ih]
      cases order.compareRows row last <;> rfl

theorem foldl_place_eq (order : Order) (rows : List Row) :
    rows.foldl (fun descending row => order.place row descending) [] =
      rows.reverse.insertionSort fun a b => (order.compareRows a b).isGE := by
  simp only [place_eq_orderedInsert]
  rw [List.insertionSort, List.foldr_reverse]

section

variable (order : Order)

abbrev Settled := {row : Row // row.Comparable order.keys}

def compareSettled (a b : order.Settled) : Ordering := order.compareRows a.1 b.1

instance : Std.TransCmp order.compareSettled := order.transCmp_compareRows

theorem exists_settled {rows : List Row} (h : ∀ row ∈ rows, row.Comparable order.keys) :
    ∃ settled : List order.Settled, settled.map Subtype.val = rows :=
  ⟨rows.attachWith _ h, List.attachWith_map_subtype_val h⟩

theorem stableSort_sort {rows : List Row} (h : ∀ row ∈ rows, row.Comparable order.keys) :
    List.StableSort order.compareRows rows (order.sort rows) := by
  obtain ⟨settled, rfl⟩ := order.exists_settled h
  unfold sort
  split
  · have hmap := List.map_insertionSort (fun a b => (order.compareSettled a b).isGE)
      (fun a b => (order.compareRows a b).isGE) Subtype.val settled.reverse fun _ _ _ _ => Iff.rfl
    rw [foldl_place_eq, ← List.map_reverse, ← hmap, ← List.map_reverse]
    exact .map order.compareRows _ (List.stableSort_insertionSort order.compareSettled settled)
  · have hsorted := List.StableSort.map order.compareRows _
      (List.stableSort_mergeSort order.compareSettled settled)
    rwa [List.map_mergeSort (s := fun a b => (order.compareRows a b).isLE)] at hsorted
    exact fun _ _ _ _ => rfl

theorem eq_of_stableSort {rows as bs : List Row} (h : ∀ row ∈ rows, row.Comparable order.keys)
    (ha : List.StableSort order.compareRows rows as)
    (hb : List.StableSort order.compareRows rows bs) : bs = as := by
  obtain ⟨settled, rfl⟩ := order.exists_settled h
  obtain ⟨as, rfl⟩ := order.exists_settled fun row hrow => h row (ha.perm.mem_iff.mp hrow)
  obtain ⟨bs, rfl⟩ := order.exists_settled fun row hrow => h row (hb.perm.mem_iff.mp hrow)
  have hsettled : List.StableSort order.compareSettled settled as := ha.of_map Subtype.val_injective
  exact congrArg _ (hsettled.unique (hb.of_map Subtype.val_injective))

end

end Registrar.Order
