import Registrar.Proofs.Answer.Aggregation
import Registrar.Proofs.Answer.Grouped

namespace Registrar

namespace Row

def Alike (row other : Row) : Prop :=
  List.Forall₂ (fun c d => c.1 = d.1 ∧ c.2.same d.2) row.cells other.cells

variable {row other : Row}

theorem Alike.push (h : row.Alike other) (name : String) {c d : Cell} (hcell : c.same d) :
    (row.push name c).Alike (other.push name d) := by
  obtain ⟨cells⟩ := row
  obtain ⟨others⟩ := other
  change List.Forall₂ _ cells others at h
  change List.Forall₂ _ (put name c cells) (put name d others)
  induction h with
  | nil => exact .cons ⟨rfl, hcell⟩ .nil
  | @cons entry entry' cells others hentry hrest ih =>
      obtain ⟨n, v⟩ := entry
      obtain ⟨m, w⟩ := entry'
      obtain ⟨rfl, hsame⟩ := hentry
      unfold put
      split
      · exact .cons ⟨rfl, hcell⟩ hrest
      · exact .cons ⟨rfl, hsame⟩ ih

theorem alike_select {columns : List Column}
    (h : ∀ c ∈ columns, ∃ v w, row.get? c.name = some v ∧ other.get? c.name = some w ∧ v.same w) :
    (select columns row).Alike (select columns other) := by
  refine List.foldl_rel List.Forall₂.nil fun c hc picked picked' hpicked => ?_
  obtain ⟨v, w, hv, hw, hsame⟩ := h c hc
  rw [hv, hw]
  exact hpicked.push c.name hsame

end Row

structure Answer.Reorders (a other : Answer) : Prop where
  scanned : a.scanned = other.scanned
  matched : a.matched = other.matched
  groups : a.groups = other.groups
  rows : ∃ rows, List.Forall₂ Row.Alike a.rows rows ∧ rows.Perm other.rows

namespace Bound

variable {b : Bound} {g : Grouping}

def Steady (b : Bound) (g : Grouping) : Prop :=
  ∀ rule ∈ g.rules, .apply rule.name ∈ b.query.columns → rule.aggregate ∈ [.max, .min, .count]

instance (b : Bound) (g : Grouping) : Decidable (b.Steady g) :=
  inferInstanceAs (Decidable (∀ rule ∈ g.rules,
    .apply rule.name ∈ b.query.columns → rule.aggregate ∈ [.max, .min, .count]))

theorem Accepted.alike_of_perm (hb : b.Accepted) (hg : g ∈ b.query.grouping) (hsteady : b.Steady g)
    {group others : List Record} (hperm : group.Perm others) (hne : group ≠ [])
    (hvalid : ∀ r ∈ group, r.Valid b.kind) (hfinite : ∀ r ∈ group, r.Finite)
    (htuple : ∀ r ∈ group, ∀ s ∈ group, g.tuple r = g.tuple s) :
    (Row.select b.query.columns (g.row group)).Alike
      (Row.select b.query.columns (g.row others)) := by
  have hne' : others ≠ [] := fun hnil => hne (hnil ▸ hperm).eq_nil
  have hmem : ∀ r ∈ others, r ∈ group := fun r => hperm.mem_iff.mpr
  obtain ⟨first, rest, rfl⟩ := List.exists_cons_of_ne_nil hne
  obtain ⟨first', rest', rfl⟩ := List.exists_cons_of_ne_nil hne'
  have hfirst := hvalid first List.mem_cons_self
  have hfirst' := hmem first' List.mem_cons_self
  have hgrouping := hb.legal.grouping g hg
  have hfound : ∀ r ∈ first :: rest, ∀ k ∈ g.keys, ∃ cell, r.get? k.field = some cell :=
    fun r hr k hk => (hb.finds_group hg hk (hvalid r hr)).found
  refine Row.alike_select fun c hc => ?_
  have hlegal := hb.legal.columns c hc
  cases c with
  | key k =>
      have hk := hlegal.2 g hg
      obtain ⟨v, hv⟩ := hfound first List.mem_cons_self k hk
      obtain ⟨w, hw⟩ := hfound first' hfirst' k hk
      have hagree := (Grouping.tuple_eq_iff (hb.typed.grouping g hg).keys hfirst
        (hvalid first' hfirst') (hfinite first List.mem_cons_self) (hfinite first' hfirst')).mp
        (htuple first List.mem_cons_self first' hfirst')
      have hsame := List.all_eq_true.mp hagree k hk
      rw [hv, hw] at hsame
      refine ⟨v, w, ?_, ?_, hsame⟩
      · exact (Grouping.get?_row_key hgrouping (hfound first List.mem_cons_self) hk).trans hv
      · exact (Grouping.get?_row_key hgrouping (hfound first' hfirst') hk).trans hw
  | apply name =>
      obtain ⟨_, g', hg', rule, hrule, rfl⟩ := hlegal
      cases Option.mem_unique hg hg'
      refine ⟨_, _, Grouping.get?_row_rule hgrouping (hfound first List.mem_cons_self) hrule,
        Grouping.get?_row_rule hgrouping (hfound first' hfirst') hrule, ?_⟩
      refine Aggregate.same_apply_of_perm (hsteady rule hrule hc) (hperm.filterMap _) ?_
      intro cell hcell
      obtain ⟨r, hr, hvalue⟩ := List.mem_filterMap.mp hcell
      exact (hfinite r hr).of_get? hvalue

theorem Accepted.rowsOf_of_perm (hb : b.Accepted) (hg : b.query.grouping = some g)
    (hsteady : b.Steady g) {records others : List Record} (hperm : records.Perm others)
    (hvalid : ∀ r ∈ records, r.Valid b.kind) (hfinite : ∀ r ∈ records, r.Finite) :
    ∃ rows, List.Forall₂ Row.Alike (Answer.rowsOf b records).1 rows ∧
      rows.Perm (Answer.rowsOf b others).1 := by
  rw [rowsOf_grouped hg, rowsOf_grouped hg, Grouping.partition_eq, Grouping.partition_eq,
    List.map_map, List.map_map]
  -- the groups of one list, each filled from the other list
  refine ⟨(records.map g.tuple).eraseDups.map fun t =>
    Row.select b.query.columns (g.row (others.filter fun r => g.tuple r = t)), ?_, ?_⟩
  · rw [List.forall₂_map_left_iff, List.forall₂_map_right_iff, List.forall₂_same]
    intro t ht
    obtain ⟨r, hr, rfl⟩ := List.mem_map.mp (List.mem_eraseDups.mp ht)
    refine hb.alike_of_perm hg hsteady (hperm.filter _) ?_ ?_ ?_ ?_
    · exact List.ne_nil_of_mem (List.mem_filter.mpr ⟨hr, decide_eq_true rfl⟩)
    · exact fun s hs => hvalid s (List.mem_filter.mp hs).1
    · exact fun s hs => hfinite s (List.mem_filter.mp hs).1
    · intro s hs u hu
      exact (of_decide_eq_true (List.mem_filter.mp hs).2).trans
        (of_decide_eq_true (List.mem_filter.mp hu).2).symm
  · exact (hperm.map g.tuple).eraseDups.map _

theorem reorders_of_perm {known : Known} {value : Json} (hb : ofJson known value = .ok b)
    (hg : b.query.grouping = some g) (horder : b.query.order = none) (hsteady : b.Steady g)
    {records others : List Record} (hperm : records.Perm others)
    (hvalid : ∀ r ∈ records, r.validate b.kind = .ok ()) (hfinite : ∀ r ∈ records, r.Finite)
    (limit : Nat) :
    (∃ rows, Answer.ofRecords limit b records = .error ⟨rows, limit⟩ ∧
      Answer.ofRecords limit b others = .error ⟨rows, limit⟩) ∨
    ∃ a other, Answer.ofRecords limit b records = .ok a ∧
      Answer.ofRecords limit b others = .ok other ∧ a.Reorders other := by
  have hmatching : (b.matching records).Perm (b.matching others) := hperm.filter _
  obtain ⟨rows, halike, hrows⟩ := (accepted_of_ofJson hb).rowsOf_of_perm hg hsteady hmatching
    (fun r hr => Record.validate_eq_ok_iff.mp (hvalid r (mem_of_mem_matching hr)))
    (fun r hr => hfinite r (mem_of_mem_matching hr))
  have hlength := halike.length_eq.trans hrows.length_eq
  rw [Answer.ofRecords_eq, Answer.ofRecords_eq, ← hlength]
  split
  · exact .inl ⟨_, rfl, rfl⟩
  · refine .inr ⟨_, _, rfl, rfl, hperm.length_eq, hmatching.length_eq, ?_, ?_⟩
    · simp only [rowsOf_grouped hg, List.length_map] at hlength ⊢
      exact hlength
    · rw [horder]
      exact ⟨rows, halike, hrows⟩

end Bound

namespace Sample

def graded (avg pass : Binary64) : Record :=
  .ofList
    [("avg", .number avg), ("pass", .number pass), ("fail", .number .zero),
      ("audit", .number .zero), ("year", .number (.ofNat 2015)), ("dept", .text "cpsc"),
      ("id", .text "310"), ("instructor", .text ""), ("title", .text "intro"),
      ("uuid", .text "1319")]

def grades : List Record :=
  [graded .zero (.signedZero true), graded (.ofNat 90) (.ofNat 5), graded (.signedZero true) .zero]

def byAverage : Grouping where
  keys := [⟨"marks", "avg"⟩]
  rules := [⟨"top", .max, ⟨"marks", "pass"⟩⟩, ⟨"count", .count, ⟨"marks", "pass"⟩⟩]

def passes : Bound where
  dataset := "marks"
  kind := .courses
  query :=
    { filter := none
      columns := [.key ⟨"marks", "avg"⟩, .apply "top", .apply "count"]
      order := none
      grouping := some byAverage }

def passesQuery : Json :=
  .obj
    [("OPTIONS", .obj [("COLUMNS", .arr [.str "marks_avg", .str "top", .str "count"])]),
      ("TRANSFORMATIONS",
        .obj
          [("APPLY",
              .arr
                [.obj [("top", .obj [("MAX", .str "marks_pass")])],
                  .obj [("count", .obj [("COUNT", .str "marks_pass")])]]),
            ("GROUP", .arr [.str "marks_avg"])]),
      ("WHERE", .obj [])]

end Sample

open Sample in
theorem reorders_grades :
    Bound.ofJson [("marks", .courses)] passesQuery = .ok passes ∧ passes.Steady byAverage ∧
      (∀ r ∈ grades, r.validate .courses = .ok ()) ∧ (∀ r ∈ grades, r.Finite) ∧
      ∃ a other, Answer.ofRecords 2 passes grades = .ok a ∧
        Answer.ofRecords 2 passes grades.reverse = .ok other ∧ a.Reorders other := by
  have hpasses : Bound.ofJson [("marks", .courses)] passesQuery = .ok passes := rfl
  have hsteady : passes.Steady byAverage := by decide
  have hvalid : ∀ r ∈ grades, r.validate .courses = .ok () := by decide +kernel
  have hfinite : ∀ r ∈ grades, r.Finite := by decide +kernel
  refine ⟨hpasses, hsteady, hvalid, hfinite, ?_⟩
  rcases Bound.reorders_of_perm hpasses rfl rfl hsteady grades.reverse_perm.symm hvalid hfinite 2
    with ⟨rows, hanswer, _⟩ | hanswers
  · have hrows : (Answer.rowsOf passes (passes.matching grades)).1.length = 2 := by
      rw [Bound.rowsOf_grouped rfl, List.length_map, Grouping.length_partition]
      decide +kernel
    rw [Answer.ofRecords_eq, hrows, if_neg (Nat.lt_irrefl 2)] at hanswer
    cases hanswer
  · exact hanswers

end Registrar
