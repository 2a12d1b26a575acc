import Registrar.Answer.Basic
import Registrar.Proofs.Answer.Sorting

namespace Registrar

def Bound.matching (b : Bound) (records : List Record) : List Record :=
  records.filter (Filter.qualifies b.query.filter)

theorem Bound.mem_of_mem_matching {b : Bound} {records : List Record} {r : Record}
    (h : r ∈ b.matching records) : r ∈ records :=
  (List.mem_filter.mp h).1

namespace Answer

theorem ordered_perm (order : Option Order) (rows : List Row) : (ordered order rows).Perm rows := by
  cases order with
  | none => exact .refl _
  | some o => exact o.sort_perm rows

theorem length_ordered (order : Option Order) (rows : List Row) :
    (ordered order rows).length = rows.length :=
  (ordered_perm order rows).length_eq

theorem ofRecords_eq (limit : Nat) (b : Bound) (records : List Record) :
    ofRecords limit b records =
      if limit < (rowsOf b (b.matching records)).1.length then
        .error ⟨(rowsOf b (b.matching records)).1.length, limit⟩
      else
        .ok
          { rows := ordered b.query.order (rowsOf b (b.matching records)).1
            scanned := records.length
            matched := (b.matching records).length
            groups := (rowsOf b (b.matching records)).2 } := by
  rw [ofRecords, select_eq_filter]
  dsimp only
  rw [length_ordered]
  rfl

variable {limit : Nat} {b : Bound} {records : List Record}

theorem mem_rows_of_ofRecords {a : Answer} (h : ofRecords limit b records = .ok a) {row : Row}
    (hrow : row ∈ a.rows) : row ∈ (rowsOf b (b.matching records)).1 := by
  rw [ofRecords_eq] at h
  split at h
  · cases h
  · cases h
    exact (ordered_perm _ _).mem_iff.mp hrow

end Answer

end Registrar
