import Registrar.Proofs.Answer.Evaluable

namespace Registrar

inductive Scan where
  | whole
  | sequential
  | batched (size : Nat)

namespace Scan

variable (filter : Option Filter) (records : List Record)

def run : Scan → List Record
  | .whole => records
  | .sequential => records.filter (Filter.qualifies filter)
  | .batched size =>
      (Answer.batches size records).flatMap fun batch => batch.filter (Filter.qualifies filter)

def Applies : Scan → Prop
  | .whole => filter = none
  | .sequential => True
  | .batched _ => True

variable {filter}

theorem run_eq_filter {scan : Scan} (h : scan.Applies filter) :
    scan.run filter records = records.filter (Filter.qualifies filter) := by
  cases scan with
  | whole =>
      have hnone : filter = none := h
      rw [hnone]
      exact (List.filter_eq_self.mpr fun _ _ => rfl).symm
  | sequential => rfl
  | batched size => rw [run, List.flatMap_def, ← List.filter_flatten, Answer.flatten_batches]

end Scan

namespace Answer

theorem batchesOf_succ_cons (size n : Nat) (r : Record) (rest : List Record) :
    batchesOf size (n + 1) (r :: rest) =
      (r :: rest).take size :: batchesOf size n ((r :: rest).drop size) := rfl

theorem getElem?_batchesOf {size : Nat} (hsize : 0 < size) {fuel : Nat} {records : List Record}
    (hfuel : records.length < (fuel + 1) * size) (i : Nat) :
    (batchesOf size fuel records)[i]? =
      if i * size < records.length then some ((records.drop (i * size)).take size) else none := by
  induction fuel generalizing records i with
  | zero =>
      have hshort : records.length ≤ size := by simpa using Nat.le_of_lt hfuel
      cases records with
      | nil => simp [batchesOf]
      | cons r rest =>
          cases i with
          | zero => simp [batchesOf, List.take_of_length_le hshort]
          | succ i =>
              have hpast := hshort.trans (Nat.le_mul_of_pos_left size (Nat.succ_pos i))
              rw [if_neg (Nat.not_lt.mpr hpast)]
              rfl
  | succ n ih =>
      cases records with
      | nil => simp [batchesOf]
      | cons r rest =>
          rw [batchesOf_succ_cons]
          cases i with
          | zero => simp
          | succ i =>
              have hpos : 0 < (n + 1) * size := Nat.mul_pos (Nat.succ_pos n) hsize
              have hrest : ((r :: rest).drop size).length < (n + 1) * size := by
                rw [Nat.succ_mul] at hfuel
                rw [List.length_drop]
                omega
              rw [List.getElem?_cons_succ, ih hrest, List.length_drop, List.drop_drop]
              simp only [Nat.lt_sub_iff_add_lt, Nat.succ_mul, Nat.add_comm size]

theorem getElem?_batches {size : Nat} (hsize : 0 < size) (records : List Record) (i : Nat) :
    (batches size records)[i]? =
      if i * size < records.length then some ((records.drop (i * size)).take size) else none :=
  getElem?_batchesOf hsize ((Nat.div_lt_iff_lt_mul hsize).mp (Nat.lt_succ_self _)) i

def ofSelected (limit : Nat) (b : Bound) (records selected : List Record) :
    Except TooLarge Answer :=
  let (rows, groups) := rowsOf b selected
  let rows := ordered b.query.order rows
  if limit < rows.length then .error ⟨rows.length, limit⟩
  else .ok ⟨rows, records.length, selected.length, groups⟩

theorem ofRecords_eq_ofSelected (limit : Nat) (b : Bound) (records : List Record) :
    ofRecords limit b records = ofSelected limit b records (b.matching records) := by
  rw [ofRecords, select_eq_filter]
  rfl

def Arranged (order : Option Order) (rows sorted : List Row) : Prop :=
  match order with
  | some o => List.StableSort o.compareRows rows sorted
  | none => sorted = rows

theorem arranged_iff {order : Option Order} {rows : List Row}
    (h : ∀ o ∈ order, ∀ row ∈ rows, row.Comparable o.keys) (sorted : List Row) :
    Arranged order rows sorted ↔ sorted = ordered order rows := by
  cases order with
  | none => exact Iff.rfl
  | some o =>
      have hsort := o.stableSort_sort (h o rfl)
      constructor
      · exact fun hsorted => o.eq_of_stableSort (h o rfl) hsort hsorted
      · rintro rfl
        exact hsort

end Answer

structure Row.Projects (columns : List Column) (record : Record) (row : Row) : Prop where
  names : row.names = (columns.map Column.name).eraseDups
  cells : ∀ k, .key k ∈ columns → ∃ cell,
    record.get? k.field = some cell ∧ row.get? k.text = some cell

namespace Bound

variable {b : Bound}

theorem rowsOf_plain (hplain : b.query.grouping = none) (records : List Record) :
    Answer.rowsOf b records = (records.map (Row.ofRecord b.dataset b.query.columns), 0) := by
  rw [Answer.rowsOf, hplain]

theorem Accepted.projects_ofRecord (hb : b.Accepted) (hplain : b.query.grouping = none)
    {r : Record} (hr : r.Valid b.kind) :
    Row.Projects b.query.columns r (Row.ofRecord b.dataset b.query.columns r) := by
  have hfinds : ∀ k, .key k ∈ b.query.columns → ∃ cell, r.get? k.field = some cell :=
    fun k hk => (hb.finds_column hk hr).found
  obtain ⟨hnames, hcells⟩ := Row.ofRecord_spec (fun c => hb.key_column hplain) hfinds
  refine ⟨hnames, fun k hk => ?_⟩
  obtain ⟨cell, hcell⟩ := hfinds k hk
  exact ⟨cell, hcell, (hcells k hk).trans hcell⟩

theorem Accepted.comparable_ofRecord (hb : b.Accepted) (hplain : b.query.grouping = none)
    {r : Record} (hr : r.Valid b.kind) (hfinite : r.Finite) {o : Order} (ho : o ∈ b.query.order) :
    (Row.ofRecord b.dataset b.query.columns r).Comparable o.keys := by
  intro key hkey cell hcell
  obtain ⟨c, hc, rfl⟩ := hb.order_key ho hkey
  obtain ⟨k, rfl, _⟩ := hb.key_column hplain hc
  obtain ⟨found, hfound, hshown⟩ := (hb.projects_ofRecord hplain hr).cells k hc
  cases hcell.symm.trans hshown
  exact (hfinite.of_get? hfound).comparable

theorem plain_answer {known : Known} {value : Json} (hb : ofJson known value = .ok b)
    (hplain : b.query.grouping = none) {records : List Record}
    (hvalid : ∀ r ∈ records, r.validate b.kind = .ok ()) (hfinite : ∀ r ∈ records, r.Finite) :
    (∀ i, (Answer.batches Answer.batchSize records)[i]? =
      if i * Answer.batchSize < records.length then
        some ((records.drop (i * Answer.batchSize)).take Answer.batchSize)
      else none) ∧
    ∃ rows sorted,
      List.Forall₂ (Row.Projects b.query.columns) (b.matching records) rows ∧
      (∀ other, Answer.Arranged b.query.order rows other ↔ other = sorted) ∧
      ∀ limit,
        Answer.ofRecords limit b records =
          (if limit < (b.matching records).length then
            .error ⟨(b.matching records).length, limit⟩
          else .ok
            { rows := sorted
              scanned := records.length
              matched := (b.matching records).length
              groups := 0 }) ∧
        ∀ scan : Scan, scan.Applies b.query.filter →
          Answer.ofSelected limit b records (scan.run b.query.filter records) =
            Answer.ofRecords limit b records := by
  have haccepted := accepted_of_ofJson hb
  have hmatching : ∀ r ∈ b.matching records, r.Valid b.kind ∧ r.Finite := by
    intro r hr
    have hmem := mem_of_mem_matching hr
    exact ⟨Record.validate_eq_ok_iff.mp (hvalid r hmem), hfinite r hmem⟩
  refine ⟨Answer.getElem?_batches (by decide) records, ?_⟩
  refine ⟨(b.matching records).map (Row.ofRecord b.dataset b.query.columns), _, ?_,
    Answer.arranged_iff ?_, fun limit => ⟨?_, fun scan hscan => ?_⟩⟩
  · rw [List.forall₂_map_right_iff, List.forall₂_same]
    exact fun r hr => haccepted.projects_ofRecord hplain (hmatching r hr).1
  · intro o ho row hrow
    obtain ⟨r, hr, rfl⟩ := List.mem_map.mp hrow
    exact haccepted.comparable_ofRecord hplain (hmatching r hr).1 (hmatching r hr).2 ho
  · rw [Answer.ofRecords_eq, rowsOf_plain hplain, List.length_map]
  · rw [Scan.run_eq_filter records hscan, Answer.ofRecords_eq_ofSelected]
    rfl

end Bound

namespace Sample

def sections : List Record :=
  [course "cpsc" 90, course "math" 70, course "cpsc" 90, course "biol" 40]

def passed : Bound where
  dataset := "marks"
  kind := .courses
  query :=
    { filter := some (.number .greater ⟨"marks", "avg"⟩ (.ofInt 50))
      columns := [.key ⟨"marks", "dept"⟩, .key ⟨"marks", "avg"⟩, .key ⟨"marks", "dept"⟩]
      order := some (.single "marks_avg")
      grouping := none }

def passedQuery : Json :=
  .obj
    [("OPTIONS",
        .obj
          [("COLUMNS", .arr [.str "marks_dept", .str "marks_avg", .str "marks_dept"]),
            ("ORDER", .str "marks_avg")]),
      ("WHERE", .obj [("GT", .obj [("marks_avg", .int 50)])])]

end Sample

theorem plain_passed :
    Bound.ofJson [("marks", .courses)] Sample.passedQuery = .ok Sample.passed ∧
      (∀ r ∈ Sample.sections, r.validate .courses = .ok ()) ∧ (∀ r ∈ Sample.sections, r.Finite) ∧
      Answer.ofRecords 2 Sample.passed Sample.sections = .error ⟨3, 2⟩ ∧
      ∃ rows sorted,
        List.Forall₂ (Row.Projects Sample.passed.query.columns)
          [Sample.course "cpsc" 90, Sample.course "math" 70, Sample.course "cpsc" 90] rows ∧
        List.StableSort (Order.single "marks_avg").compareRows rows sorted ∧
        Answer.ofRecords 3 Sample.passed Sample.sections = .ok ⟨sorted, 4, 3, 0⟩ := by
  have hpassed : Bound.ofJson [("marks", .courses)] Sample.passedQuery = .ok Sample.passed := rfl
  have hvalid : ∀ r ∈ Sample.sections, r.validate .courses = .ok () := by decide
  have hfinite : ∀ r ∈ Sample.sections, r.Finite := by decide +kernel
  have hmatching : Sample.passed.matching Sample.sections =
      [Sample.course "cpsc" 90, Sample.course "math" 70, Sample.course "cpsc" 90] := by
    decide +kernel
  obtain ⟨_, rows, sorted, hrows, hsorted, hanswer⟩ :=
    Bound.plain_answer hpassed rfl hvalid hfinite
  rw [hmatching] at hrows hanswer
  exact ⟨hpassed, hvalid, hfinite, (hanswer 2).1, rows, sorted, hrows, (hsorted sorted).mpr rfl,
    (hanswer 3).1⟩

end Registrar
