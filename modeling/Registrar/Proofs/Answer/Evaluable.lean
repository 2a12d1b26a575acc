import Registrar.Answer.Session
import Registrar.Proofs.Answer.Basic
import Registrar.Proofs.Answer.Group
import Registrar.Proofs.Answer.Partition
import Registrar.Proofs.Catalog.Record
import Registrar.Proofs.Query.Acceptance

namespace Registrar

namespace Filter

variable (kind : Kind) (r : Record)

mutual

def Finds : Filter → Prop
  | .not inner => Finds inner
  | .and parts => ListFinds parts
  | .or parts => ListFinds parts
  | .number _ key _ => r.Finds kind key.field ∧ ∃ x, r.get? key.field = some (.number x)
  | .text key _ => r.Finds kind key.field ∧ ∃ s, r.get? key.field = some (.text s)

def ListFinds : List Filter → Prop
  | [] => True
  | f :: rest => Finds f ∧ ListFinds rest

end

variable {kind r}

theorem finds_number (hr : r.Valid kind) {key : Key} (h : kind.classify key.field = .numeric) :
    r.Finds kind key.field ∧ ∃ x, r.get? key.field = some (.number x) := by
  have hknown : kind.classify key.field ≠ .unknown := by simp [h]
  obtain ⟨cell, hcell, hclass⟩ := hr.finds hknown
  obtain ⟨x, rfl⟩ := Cell.fieldClass_eq_numeric_iff.mp (hclass.trans h)
  exact ⟨⟨_, hcell, hclass⟩, x, hcell⟩

theorem finds_text (hr : r.Valid kind) {key : Key} (h : kind.classify key.field = .textual) :
    r.Finds kind key.field ∧ ∃ s, r.get? key.field = some (.text s) := by
  have hknown : kind.classify key.field ≠ .unknown := by simp [h]
  obtain ⟨cell, hcell, hclass⟩ := hr.finds hknown
  obtain ⟨s, rfl⟩ := Cell.fieldClass_eq_textual_iff.mp (hclass.trans h)
  exact ⟨⟨_, hcell, hclass⟩, s, hcell⟩

mutual

theorem finds_of_typed (hr : r.Valid kind) : ∀ f : Filter, f.Typed kind → f.Finds kind r
  | .not inner => finds_of_typed hr inner
  | .and parts => listFinds_of_typed hr parts
  | .or parts => listFinds_of_typed hr parts
  | .number _ _ _ => finds_number hr
  | .text _ _ => finds_text hr

theorem listFinds_of_typed (hr : r.Valid kind) :
    ∀ parts : List Filter, ListTyped kind parts → ListFinds kind r parts
  | [] => fun _ => trivial
  | f :: rest => fun ⟨hf, hrest⟩ => ⟨finds_of_typed hr f hf, listFinds_of_typed hr rest hrest⟩

end

end Filter

def Column.fieldClass (kind : Kind) : Column → FieldClass
  | .key k => kind.classify k.field
  | .apply _ => .numeric

structure Row.Complete (kind : Kind) (columns : List Column) (row : Row) : Prop where
  names : row.names = (columns.map Column.name).eraseDups
  cells : ∀ c ∈ columns, ∃ cell, row.get? c.name = some cell ∧ cell.fieldClass = c.fieldClass kind

structure Evaluable (b : Bound) (records : List Record) : Prop where
  filter : ∀ f ∈ b.query.filter, ∀ r ∈ records, f.Finds b.kind r
  columns : ∀ k, .key k ∈ b.query.columns → ∀ r ∈ records, r.Finds b.kind k.field
  group : ∀ g ∈ b.query.grouping, ∀ k ∈ g.keys, ∀ r ∈ records, r.Finds b.kind k.field
  apply : ∀ g ∈ b.query.grouping, ∀ rule ∈ g.rules, ∀ r ∈ records, r.Finds b.kind rule.key.field
  aggregate : ∀ g ∈ b.query.grouping, ∀ rule ∈ g.rules, rule.aggregate.requiresNumeric = true →
    ∀ group ∈ g.partition (b.matching records),
      rule.values group ≠ [] ∧ ∀ cell ∈ rule.values group, ∃ x, cell = .number x
  order : ∀ o ∈ b.query.order, ∀ key ∈ o.keys, ∃ fieldClass,
    ∀ row ∈ (Answer.rowsOf b (b.matching records)).1,
      ∃ cell, row.get? key = some cell ∧ cell.fieldClass = fieldClass

namespace Bound

variable {b : Bound} {records : List Record}

theorem Accepted.finds_column (hb : b.Accepted) {k : Key} (hk : .key k ∈ b.query.columns)
    {r : Record} (hr : r.Valid b.kind) : r.Finds b.kind k.field :=
  hr.finds (hb.typed.columns _ hk)

theorem Accepted.finds_group (hb : b.Accepted) {g : Grouping} (hg : g ∈ b.query.grouping) {k : Key}
    (hk : k ∈ g.keys) {r : Record} (hr : r.Valid b.kind) : r.Finds b.kind k.field :=
  hr.finds ((hb.typed.grouping g hg).keys k hk)

theorem Accepted.finds_rule (hb : b.Accepted) {g : Grouping} (hg : g ∈ b.query.grouping)
    {rule : Rule} (hrule : rule ∈ g.rules) {r : Record} (hr : r.Valid b.kind) :
    r.Finds b.kind rule.key.field :=
  hr.finds ((hb.typed.grouping g hg).rules rule hrule).1

theorem Accepted.dataset_column (hb : b.Accepted) {k : Key} (hk : .key k ∈ b.query.columns) :
    k.dataset = b.dataset :=
  hb.dataset k (Query.mem_keys_iff.mpr (.inr (.inl hk)))

theorem Accepted.key_column (hb : b.Accepted) (hplain : b.query.grouping = none) {c : Column}
    (hc : c ∈ b.query.columns) : ∃ k, c = .key k ∧ k.dataset = b.dataset := by
  have hlegal := hb.legal.columns c hc
  cases c with
  | key k => exact ⟨k, rfl, hb.dataset_column hc⟩
  | apply =>
      obtain ⟨_, g, hg, _⟩ := hlegal
      rw [hplain] at hg
      cases hg

theorem Accepted.complete_ofRecord (hb : b.Accepted) (hplain : b.query.grouping = none)
    {r : Record} (hr : r.Valid b.kind) :
    (Row.ofRecord b.dataset b.query.columns r).Complete b.kind b.query.columns := by
  have hkeys : ∀ c ∈ b.query.columns, ∃ k, c = .key k ∧ k.dataset = b.dataset :=
    fun _ => hb.key_column hplain
  have hfinds : ∀ k, .key k ∈ b.query.columns → ∃ cell, r.get? k.field = some cell :=
    fun k hk => (hb.finds_column hk hr).found
  obtain ⟨hnames, hcells⟩ := Row.ofRecord_spec hkeys hfinds
  refine ⟨hnames, fun c hc => ?_⟩
  obtain ⟨k, rfl, _⟩ := hkeys c hc
  obtain ⟨cell, hcell, hclass⟩ := hb.finds_column hc hr
  exact ⟨cell, (hcells k hc).trans hcell, hclass⟩

theorem Accepted.get?_row (hb : b.Accepted) {g : Grouping} (hg : g ∈ b.query.grouping)
    {first : Record} {rest : List Record} (hfirst : first.Valid b.kind) {c : Column}
    (hc : c ∈ b.query.columns) :
    ∃ cell, (g.row (first :: rest)).get? c.name = some cell ∧
      cell.fieldClass = c.fieldClass b.kind := by
  have hgrouping := hb.legal.grouping g hg
  have hfound : ∀ k ∈ g.keys, ∃ cell, first.get? k.field = some cell :=
    fun k hk => (hb.finds_group hg hk hfirst).found
  have hlegal := hb.legal.columns c hc
  cases c with
  | key k =>
      have hk := hlegal.2 g hg
      obtain ⟨cell, hcell, hclass⟩ := hb.finds_group hg hk hfirst
      exact ⟨cell, (Grouping.get?_row_key hgrouping hfound hk).trans hcell, hclass⟩
  | apply name =>
      obtain ⟨_, g', hg', rule, hrule, rfl⟩ := hlegal
      cases Option.mem_unique hg hg'
      exact ⟨_, Grouping.get?_row_rule hgrouping hfound hrule, rfl⟩

theorem Accepted.complete_select (hb : b.Accepted) {g : Grouping} (hg : g ∈ b.query.grouping)
    {first : Record} {rest : List Record} (hfirst : first.Valid b.kind) :
    (Row.select b.query.columns (g.row (first :: rest))).Complete b.kind b.query.columns := by
  have hfound : ∀ c ∈ b.query.columns, ∃ cell, (g.row (first :: rest)).get? c.name = some cell := by
    intro c hc
    obtain ⟨cell, hcell, _⟩ := hb.get?_row hg hfirst hc
    exact ⟨cell, hcell⟩
  obtain ⟨hnames, hcells⟩ := Row.select_spec hfound
  refine ⟨hnames, fun c hc => ?_⟩
  obtain ⟨cell, hcell, hclass⟩ := hb.get?_row hg hfirst hc
  exact ⟨cell, (hcells c hc).trans hcell, hclass⟩

theorem Accepted.complete_rowsOf (hb : b.Accepted) (hvalid : ∀ r ∈ records, r.Valid b.kind) :
    ∀ row ∈ (Answer.rowsOf b records).1, row.Complete b.kind b.query.columns := by
  intro row hrow
  unfold Answer.rowsOf at hrow
  split at hrow
  · next g hg =>
    obtain ⟨grouped, hgrouped, rfl⟩ := List.mem_map.mp hrow
    obtain ⟨group, hgroup, rfl⟩ := List.mem_map.mp hgrouped
    obtain ⟨hne, hmem⟩ := Grouping.mem_partition hgroup
    obtain ⟨first, rest, rfl⟩ := List.exists_cons_of_ne_nil hne
    exact hb.complete_select hg (hvalid first (hmem first List.mem_cons_self))
  · next hplain =>
    obtain ⟨r, hr, rfl⟩ := List.mem_map.mp hrow
    exact hb.complete_ofRecord hplain (hvalid r hr)

theorem Accepted.values_of_requiresNumeric (hb : b.Accepted) {g : Grouping}
    (hg : g ∈ b.query.grouping) {rule : Rule} (hrule : rule ∈ g.rules)
    (hnumeric : rule.aggregate.requiresNumeric = true) {group : List Record} (hne : group ≠ [])
    (hvalid : ∀ r ∈ group, r.Valid b.kind) :
    rule.values group ≠ [] ∧ ∀ cell ∈ rule.values group, ∃ x, cell = .number x := by
  have hclass := ((hb.typed.grouping g hg).rules rule hrule).2 hnumeric
  constructor
  · obtain ⟨r, hr⟩ := List.exists_mem_of_ne_nil group hne
    obtain ⟨cell, hcell, _⟩ := hb.finds_rule hg hrule (hvalid r hr)
    exact List.ne_nil_of_mem (List.mem_filterMap.mpr ⟨r, hr, hcell⟩)
  · intro cell hcell
    obtain ⟨r, hr, hget⟩ := List.mem_filterMap.mp hcell
    obtain ⟨found, hfound, hfield⟩ := hb.finds_rule hg hrule (hvalid r hr)
    cases hget.symm.trans hfound
    exact Cell.fieldClass_eq_numeric_iff.mp (hfield.trans hclass)

theorem Accepted.order_key (hb : b.Accepted) {o : Order} (ho : o ∈ b.query.order) {key : String}
    (hkey : key ∈ o.keys) : ∃ c ∈ b.query.columns, c.name = key :=
  List.mem_map.mp ((hb.legal.order o ho).within key hkey)

theorem Accepted.evaluable (hb : b.Accepted) (hvalid : ∀ r ∈ records, r.Valid b.kind) :
    Evaluable b records := by
  have hmatching : ∀ r ∈ b.matching records, r.Valid b.kind :=
    fun r hr => hvalid r (mem_of_mem_matching hr)
  constructor
  case filter =>
    intro f hf r hr
    exact Filter.finds_of_typed (hvalid r hr) f (hb.typed.filter f hf)
  case columns => exact fun k hk r hr => hb.finds_column hk (hvalid r hr)
  case group => exact fun g hg k hk r hr => hb.finds_group hg hk (hvalid r hr)
  case apply => exact fun g hg rule hrule r hr => hb.finds_rule hg hrule (hvalid r hr)
  case aggregate =>
    intro g hg rule hrule hnumeric group hgroup
    obtain ⟨hne, hmem⟩ := Grouping.mem_partition hgroup
    exact hb.values_of_requiresNumeric hg hrule hnumeric hne fun r hr => hmatching r (hmem r hr)
  case order =>
    intro o ho key hkey
    obtain ⟨c, hc, rfl⟩ := hb.order_key ho hkey
    exact ⟨c.fieldClass b.kind, fun row hrow => (hb.complete_rowsOf hmatching row hrow).cells c hc⟩

end Bound

theorem Bound.evaluable_of_ofJson {known : Known} {value : Json} {b : Bound}
    (hb : Bound.ofJson known value = .ok b) {records : List Record}
    (hvalid : ∀ r ∈ records, r.validate b.kind = .ok ()) (limit : Nat) :
    Evaluable b records ∧
      ((∃ a, Answer.ofRecords limit b records = .ok a ∧
          ∀ row ∈ a.rows, row.Complete b.kind b.query.columns) ∨
        ∃ rows, limit < rows ∧ Answer.ofRecords limit b records = .error ⟨rows, limit⟩) ∧
      ∀ fault, Answer.ofQuery limit known (fun _ => some records) value = .error fault →
        fault.code = "QUERY_RESULT_TOO_LARGE" := by
  have haccepted := Bound.accepted_of_ofJson hb
  have hrecords : ∀ r ∈ records, r.Valid b.kind :=
    fun r hr => Record.validate_eq_ok_iff.mp (hvalid r hr)
  refine ⟨haccepted.evaluable hrecords, ?_, ?_⟩
  · cases ha : Answer.ofRecords limit b records with
    | ok a =>
        refine .inl ⟨a, rfl, fun row hrow => ?_⟩
        exact haccepted.complete_rowsOf (fun r hr => hrecords r (Bound.mem_of_mem_matching hr)) row
          (Answer.mem_rows_of_ofRecords ha hrow)
    | error cause =>
        rw [Answer.ofRecords_eq] at ha
        split at ha
        · next hlimit =>
          cases ha
          exact .inr ⟨_, hlimit, rfl⟩
        · cases ha
  · intro fault hfault
    simp only [Answer.ofQuery, hb] at hfault
    split at hfault
    · cases hfault
    · cases hfault
      rfl

namespace Sample

def course (dept : String) (avg : Nat) : Record :=
  .ofList
    [("avg", .number (.ofNat avg)), ("pass", .number .zero), ("fail", .number .zero),
      ("audit", .number .zero), ("year", .number (.ofNat 2015)), ("dept", .text dept),
      ("id", .text "310"), ("instructor", .text ""), ("title", .text "intro"),
      ("uuid", .text "1319")]

def best : Bound where
  dataset := "marks"
  kind := .courses
  query :=
    { filter := some (.number .greater ⟨"marks", "avg"⟩ (.ofInt 50))
      columns := [.key ⟨"marks", "dept"⟩, .apply "best"]
      order := some (.single "best")
      grouping := some ⟨[⟨"marks", "dept"⟩], [⟨"best", .max, ⟨"marks", "avg"⟩⟩]⟩ }

def bestQuery : Json :=
  .obj
    [("OPTIONS",
        .obj [("COLUMNS", .arr [.str "marks_dept", .str "best"]), ("ORDER", .str "best")]),
      ("TRANSFORMATIONS",
        .obj
          [("APPLY", .arr [.obj [("best", .obj [("MAX", .str "marks_avg")])]]),
            ("GROUP", .arr [.str "marks_dept"])]),
      ("WHERE", .obj [("GT", .obj [("marks_avg", .int 50)])])]

end Sample

theorem evaluable_best :
    Bound.ofJson [("marks", .courses)] Sample.bestQuery = .ok Sample.best ∧
      (∀ r ∈ [Sample.course "cpsc" 90, Sample.course "math" 40], r.validate .courses = .ok ()) ∧
      Evaluable Sample.best [Sample.course "cpsc" 90, Sample.course "math" 40] := by
  have hbest : Bound.ofJson [("marks", .courses)] Sample.bestQuery = .ok Sample.best := rfl
  have hvalid : ∀ r ∈ [Sample.course "cpsc" 90, Sample.course "math" 40],
      r.validate .courses = .ok () := by decide
  exact ⟨hbest, hvalid, (Bound.evaluable_of_ofJson hbest hvalid 1).1⟩

end Registrar
