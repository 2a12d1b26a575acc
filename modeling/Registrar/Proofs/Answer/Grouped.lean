import Registrar.Proofs.Answer.Evaluable

namespace Registrar

theorem Rule.map_values {rule : Rule} {group : List Record}
    (h : ∀ r ∈ group, ∃ cell, r.get? rule.key.field = some cell) :
    (group.map fun r => r.get? rule.key.field) = (rule.values group).map some := by
  induction group with
  | nil => rfl
  | cons r rest ih =>
      obtain ⟨⟨cell, hcell⟩, hrest⟩ := List.forall_mem_cons.mp h
      have hvalues : rule.values (r :: rest) = cell :: rule.values rest :=
        List.filterMap_cons_some hcell
      rw [List.map_cons, ih hrest, hvalues, hcell, List.map_cons]

namespace Grouping

def agree (g : Grouping) (r s : Record) : Bool :=
  g.keys.all fun k =>
    match r.get? k.field, s.get? k.field with
    | some c, some d => c.same d
    | _, _ => false

structure Partitions (g : Grouping) (records : List Record) (groups : List (List Record)) :
    Prop where
  nonempty : ∀ group ∈ groups, group ≠ []
  same : ∀ group ∈ groups, ∀ r ∈ group, group = records.filter (g.agree r)
  cover : groups.flatten.Perm records
  order : (groups.filterMap List.head?).Pairwise fun r s => records.idxOf r < records.idxOf s

structure Shows (g : Grouping) (columns : List Column) (group : List Record) (row : Row) :
    Prop where
  names : row.names = (columns.map Column.name).eraseDups
  keys : ∀ k, .key k ∈ columns → ∃ first ∈ group.head?, ∃ cell,
    first.get? k.field = some cell ∧ row.get? k.text = some cell
  apply : ∀ name, .apply name ∈ columns → ∃ rule ∈ g.rules, rule.name = name ∧ ∃ values,
    (group.map fun r => r.get? rule.key.field) = values.map some ∧
      row.get? name = some (rule.aggregate.apply values)

variable {g : Grouping}

theorem tuple_eq_iff {kind : Kind} (hkeys : ∀ k ∈ g.keys, kind.classify k.field ≠ .unknown)
    {r s : Record} (hr : r.Valid kind) (hs : s.Valid kind) (hfr : r.Finite) (hfs : s.Finite) :
    g.tuple r = g.tuple s ↔ g.agree r s := by
  rw [tuple, tuple, List.map_inj_left, agree, List.all_eq_true]
  refine forall₂_congr fun k hk => ?_
  obtain ⟨c, hc, _⟩ := hr.finds (hkeys k hk)
  obtain ⟨d, hd, _⟩ := hs.finds (hkeys k hk)
  rw [hc, hd, Option.map_some, Option.map_some, Option.some.injEq]
  exact Cell.canonical_eq_iff (hfr.of_get? hc).comparable (hfs.of_get? hd).comparable

theorem partitions_partition {records : List Record}
    (hagree : ∀ r ∈ records, ∀ s ∈ records, (g.tuple r = g.tuple s ↔ g.agree r s)) :
    g.Partitions records (g.partition records) := by
  constructor
  case nonempty => exact fun group hgroup => (mem_partition hgroup).1
  case same =>
    intro group hgroup r hr
    rw [partition_eq, List.mem_map] at hgroup
    obtain ⟨t, _, rfl⟩ := hgroup
    obtain ⟨hmem, ht⟩ := List.mem_filter.mp hr
    have ht : g.tuple r = t := of_decide_eq_true ht
    refine List.filter_congr fun s hs => ?_
    rw [Bool.eq_iff_iff, decide_eq_true_iff, ← hagree r hmem s hs, ht]
    exact eq_comm
  case cover =>
    rw [partition_eq]
    refine Groups.flatten_filter_perm (List.nodup_eraseDups _) fun r hr => ?_
    exact List.mem_eraseDups.mpr (List.mem_map_of_mem hr)
  case order =>
    have hfirsts : (g.partition records).filterMap List.head? = Groups.firsts g.tuple records := by
      rw [partition_eq, List.filterMap_map, Groups.firsts]
      exact List.filterMap_congr fun t _ => List.head?_filter
    rw [hfirsts]
    exact Groups.firsts_pairwise g.tuple records

def shown (g : Grouping) (columns : List Column) : Grouping :=
  { g with rules := g.rules.filter fun r => .apply r.name ∈ columns }

theorem Legal.shown (h : g.Legal) (columns : List Column) : (g.shown columns).Legal where
  nonempty := h.nonempty
  proper := h.proper
  rules r hr := h.rules r (List.mem_filter.mp hr).1
  distinct := (List.filter_sublist.map Rule.name).nodup h.distinct

theorem length_partition (g : Grouping) (records : List Record) :
    (g.partition records).length = (records.map g.tuple).eraseDups.length := by
  rw [partition_eq, List.length_map]

end Grouping

namespace Bound

variable {b : Bound} {g : Grouping}

theorem Accepted.shows_select (hb : b.Accepted) (hg : g ∈ b.query.grouping) {group : List Record}
    (hne : group ≠ []) (hvalid : ∀ r ∈ group, r.Valid b.kind) :
    g.Shows b.query.columns group (Row.select b.query.columns (g.row group)) := by
  obtain ⟨first, rest, rfl⟩ := List.exists_cons_of_ne_nil hne
  have hfirst := hvalid first List.mem_cons_self
  have hgrouping := hb.legal.grouping g hg
  have hfound : ∀ k ∈ g.keys, ∃ cell, first.get? k.field = some cell :=
    fun k hk => (hb.finds_group hg hk hfirst).found
  have hcolumns : ∀ c ∈ b.query.columns, ∃ cell,
      (g.row (first :: rest)).get? c.name = some cell := by
    intro c hc
    obtain ⟨cell, hcell, _⟩ := hb.get?_row hg hfirst hc
    exact ⟨cell, hcell⟩
  obtain ⟨hnames, hcells⟩ := Row.select_spec hcolumns
  constructor
  case names => exact hnames
  case keys =>
    intro k hk
    have hmem : k ∈ g.keys := (hb.legal.columns _ hk).2 g hg
    obtain ⟨cell, hcell⟩ := hfound k hmem
    refine ⟨first, rfl, cell, hcell, ?_⟩
    exact (hcells _ hk).trans ((Grouping.get?_row_key hgrouping hfound hmem).trans hcell)
  case apply =>
    intro name hc
    obtain ⟨_, g', hg', rule, hrule, rfl⟩ := hb.legal.columns _ hc
    cases Option.mem_unique hg hg'
    refine ⟨rule, hrule, rfl, rule.values (first :: rest), Rule.map_values fun r hr => ?_, ?_⟩
    · exact (hb.finds_rule hg hrule (hvalid r hr)).found
    · exact (hcells _ hc).trans (Grouping.get?_row_rule hgrouping hfound hrule)

theorem rowsOf_grouped (hg : b.query.grouping = some g) (records : List Record) :
    Answer.rowsOf b records =
      ((g.partition records).map fun group => Row.select b.query.columns (g.row group),
        (g.partition records).length) := by
  simp [Answer.rowsOf, hg, Grouping.rows]

theorem Accepted.select_shown (hb : b.Accepted) (hg : g ∈ b.query.grouping) {group : List Record}
    (hne : group ≠ []) (hvalid : ∀ r ∈ group, r.Valid b.kind) :
    Row.select b.query.columns ((g.shown b.query.columns).row group) =
      Row.select b.query.columns (g.row group) := by
  obtain ⟨first, rest, rfl⟩ := List.exists_cons_of_ne_nil hne
  have hfirst := hvalid first List.mem_cons_self
  have hgrouping := hb.legal.grouping g hg
  have hshown := hgrouping.shown b.query.columns
  have hfound : ∀ k ∈ g.keys, ∃ cell, first.get? k.field = some cell :=
    fun k hk => (hb.finds_group hg hk hfirst).found
  have hcells : ∀ c ∈ b.query.columns,
      ((g.shown b.query.columns).row (first :: rest)).get? c.name =
        (g.row (first :: rest)).get? c.name := by
    intro c hc
    have hlegal := hb.legal.columns c hc
    cases c with
    | key k =>
        have hk := hlegal.2 g hg
        exact (Grouping.get?_row_key hshown hfound hk).trans
          (Grouping.get?_row_key hgrouping hfound hk).symm
    | apply name =>
        obtain ⟨_, g', hg', rule, hrule, rfl⟩ := hlegal
        cases Option.mem_unique hg hg'
        have hkept : rule ∈ (g.shown b.query.columns).rules :=
          List.mem_filter.mpr ⟨hrule, decide_eq_true hc⟩
        exact (Grouping.get?_row_rule hshown hfound hkept).trans
          (Grouping.get?_row_rule hgrouping hfound hrule).symm
  refine List.foldl_ext _ _ _ fun row c hc => ?_
  rw [hcells c hc]

def shown (b : Bound) : Bound :=
  { b with
    query :=
      { b.query with grouping := b.query.grouping.map fun g => g.shown b.query.columns } }

theorem Accepted.ofRecords_shown (hb : b.Accepted) (hg : b.query.grouping = some g)
    {records : List Record} (hvalid : ∀ r ∈ records, r.Valid b.kind) (limit : Nat) :
    Answer.ofRecords limit b.shown records = Answer.ofRecords limit b records := by
  have hshown : b.shown.query.grouping = some (g.shown b.query.columns) := by
    rw [shown, hg, Option.map_some]
  have hrows : Answer.rowsOf b.shown (b.matching records) =
      Answer.rowsOf b (b.matching records) := by
    rw [rowsOf_grouped hshown, rowsOf_grouped hg]
    refine Prod.ext (List.map_congr_left fun group hgroup => ?_) rfl
    obtain ⟨hne, hmem⟩ := Grouping.mem_partition hgroup
    exact hb.select_shown hg hne fun r hr => hvalid r (mem_of_mem_matching (hmem r hr))
  have hmatching : b.shown.matching records = b.matching records := rfl
  rw [Answer.ofRecords_eq, Answer.ofRecords_eq, hmatching, hrows]
  rfl

theorem grouped_answer {known : Known} {value : Json} (hb : ofJson known value = .ok b)
    (hg : b.query.grouping = some g) {records : List Record}
    (hvalid : ∀ r ∈ records, r.validate b.kind = .ok ()) (hfinite : ∀ r ∈ records, r.Finite) :
    ∃ groups rows,
      g.Partitions (b.matching records) groups ∧
      List.Forall₂ (g.Shows b.query.columns) groups rows ∧
      groups.length = ((b.matching records).map g.tuple).eraseDups.length ∧
      ∀ limit,
        Answer.ofRecords limit b records =
          (if limit < groups.length then .error ⟨groups.length, limit⟩
          else .ok
            { rows := Answer.ordered b.query.order rows
              scanned := records.length
              matched := (b.matching records).length
              groups := groups.length }) ∧
        Answer.ofRecords limit b.shown records = Answer.ofRecords limit b records := by
  have haccepted := accepted_of_ofJson hb
  have hrecords : ∀ r ∈ records, r.Valid b.kind :=
    fun r hr => Record.validate_eq_ok_iff.mp (hvalid r hr)
  have hmatching : ∀ r ∈ b.matching records, r.Valid b.kind ∧ r.Finite := by
    intro r hr
    have hmem := mem_of_mem_matching hr
    exact ⟨hrecords r hmem, hfinite r hmem⟩
  refine ⟨g.partition (b.matching records), (g.partition (b.matching records)).map fun group =>
    Row.select b.query.columns (g.row group), ?_, ?_, g.length_partition _, fun limit => ⟨?_, ?_⟩⟩
  · refine Grouping.partitions_partition fun r hr s hs => ?_
    obtain ⟨hrvalid, hrfinite⟩ := hmatching r hr
    obtain ⟨hsvalid, hsfinite⟩ := hmatching s hs
    have hkeys := (haccepted.typed.grouping g hg).keys
    exact Grouping.tuple_eq_iff hkeys hrvalid hsvalid hrfinite hsfinite
  · rw [List.forall₂_map_right_iff, List.forall₂_same]
    intro group hgroup
    obtain ⟨hne, hmem⟩ := Grouping.mem_partition hgroup
    exact haccepted.shows_select hg hne fun r hr => (hmatching r (hmem r hr)).1
  · rw [Answer.ofRecords_eq, rowsOf_grouped hg, List.length_map]
  · exact haccepted.ofRecords_shown hg hrecords limit

end Bound

theorem grouped_best :
    Bound.ofJson [("marks", .courses)] Sample.bestQuery = .ok Sample.best ∧
      (∀ r ∈ [Sample.course "cpsc" 90, Sample.course "math" 70], r.validate .courses = .ok ()) ∧
      (∀ r ∈ [Sample.course "cpsc" 90, Sample.course "math" 70], r.Finite) ∧
      ∃ groups rows,
        List.Forall₂
          (Grouping.Shows ⟨[⟨"marks", "dept"⟩], [⟨"best", .max, ⟨"marks", "avg"⟩⟩]⟩
            Sample.best.query.columns) groups rows ∧
        groups.length = 2 ∧
        Answer.ofRecords 1 Sample.best [Sample.course "cpsc" 90, Sample.course "math" 70] =
          .error ⟨2, 1⟩ := by
  have hbest : Bound.ofJson [("marks", .courses)] Sample.bestQuery = .ok Sample.best := rfl
  have hvalid : ∀ r ∈ [Sample.course "cpsc" 90, Sample.course "math" 70],
      r.validate .courses = .ok () := by decide
  have hfinite : ∀ r ∈ [Sample.course "cpsc" 90, Sample.course "math" 70], r.Finite := by
    decide +kernel
  refine ⟨hbest, hvalid, hfinite, ?_⟩
  obtain ⟨groups, rows, _, hshows, hlength, hanswer⟩ :=
    Bound.grouped_answer hbest rfl hvalid hfinite
  have htwo : groups.length = 2 := hlength.trans (by decide +kernel)
  refine ⟨groups, rows, hshows, htwo, ?_⟩
  rw [(hanswer 1).1, htwo]
  rfl

end Registrar
