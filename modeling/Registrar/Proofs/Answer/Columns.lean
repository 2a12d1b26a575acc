import Registrar.Proofs.Answer.Evaluable

namespace Registrar

theorem Column.Legal.eq_of_name_eq {grouping : Option Grouping} {c d : Column}
    (hc : c.Legal grouping) (hd : d.Legal grouping) (h : c.name = d.name) : c = d := by
  cases c with
  | key k =>
      cases d with
      | key l => exact congrArg key (Key.text_injective hc.1 hd.1 h)
      | apply name =>
          have hname : k.text = name := h
          exact absurd k.separator_mem_text (hname ▸ hd.1)
  | apply name =>
      cases d with
      | key l =>
          have hname : name = l.text := h
          exact absurd l.separator_mem_text (hname ▸ hc.1)
      | apply other => exact congrArg apply h

namespace Row

inductive Fills : List (Column × Cell) → Row → Prop
  | empty : Fills [] empty
  | push {pushes : List (Column × Cell)} {row : Row} {c : Column} {cell : Cell}
      (filled : Fills pushes row)
      (own : ∀ old, row.get? c.name = some old → (c, old) ∈ pushes ∧ old = cell) :
      Fills (pushes ++ [(c, cell)]) (row.push c.name cell)

variable {pushes : List (Column × Cell)} {row : Row}

theorem Fills.get?_eq (h : Fills pushes row) {c : Column} {cell : Cell}
    (hmem : (c, cell) ∈ pushes) : row.get? c.name = some cell := by
  induction h with
  | empty => cases hmem
  | @push pushes row last value _ own ih =>
      rw [get?_push]
      rcases List.mem_append.mp hmem with hbefore | hlast
      · split
        · next hname =>
          have hold := ih hbefore
          rw [← hname] at hold
          rw [(own cell hold).2]
        · exact ih hbefore
      · cases List.mem_singleton.mp hlast
        rw [if_pos rfl]

theorem Fills.exists_of_get? (h : Fills pushes row) {name : String} {cell : Cell}
    (hget : row.get? name = some cell) : ∃ c, (c, cell) ∈ pushes ∧ c.name = name := by
  induction h with
  | empty => cases hget
  | @push pushes row last value _ _ ih =>
      rw [get?_push] at hget
      split at hget
      · next hname =>
        cases hget
        exact ⟨last, List.mem_append_right _ (List.mem_singleton_self _), hname⟩
      · obtain ⟨c, hc, hname⟩ := ih hget
        exact ⟨c, List.mem_append_left _ hc, hname⟩

def named (pushes : List (Column × Cell)) : List (String × Cell) :=
  pushes.map fun p => (p.1.name, p.2)

theorem named_append (pushes others : List (Column × Cell)) :
    named (pushes ++ others) = named pushes ++ named others :=
  List.map_append

theorem ofList_named_concat (pushes : List (Column × Cell)) (c : Column) (cell : Cell) :
    ofList (named (pushes ++ [(c, cell)])) = (ofList (named pushes)).push c.name cell := by
  rw [named_append]
  exact ofList_append_singleton (named pushes) c.name cell

theorem fills_of_legal {grouping : Option Grouping} (hlegal : ∀ p ∈ pushes, p.1.Legal grouping)
    (hsame : ∀ c x y, (c, x) ∈ pushes → (c, y) ∈ pushes → x = y) :
    Fills pushes (ofList (named pushes)) := by
  induction pushes using List.reverseRecOn with
  | nil => exact .empty
  | append_singleton pushes last ih =>
      obtain ⟨c, cell⟩ := last
      have hbefore {p : Column × Cell} (hp : p ∈ pushes) : p ∈ pushes ++ [(c, cell)] :=
        List.mem_append_left _ hp
      have hlast : (c, cell) ∈ pushes ++ [(c, cell)] :=
        List.mem_append_right _ (List.mem_singleton_self _)
      have hfilled : Fills pushes (ofList (named pushes)) :=
        ih (fun p hp => hlegal p (hbefore hp))
          fun d x y hx hy => hsame d x y (hbefore hx) (hbefore hy)
      rw [ofList_named_concat]
      refine .push hfilled fun old hold => ?_
      obtain ⟨d, hd, hname⟩ := hfilled.exists_of_get? hold
      cases (hlegal _ (hbefore hd)).eq_of_name_eq (hlegal _ hlast) hname
      exact ⟨hd, hsame c old cell (hbefore hd) hlast⟩

def found (columns : List Column) (value : Column → Option Cell) : List (Column × Cell) :=
  columns.filterMap fun c => (value c).map fun cell => (c, cell)

variable {columns : List Column} {value : Column → Option Cell}

theorem mem_found_iff {p : Column × Cell} :
    p ∈ found columns value ↔ p.1 ∈ columns ∧ value p.1 = some p.2 := by
  obtain ⟨c, cell⟩ := p
  simp only [found, List.mem_filterMap, Option.map_eq_some_iff, Prod.mk.injEq]
  constructor
  · rintro ⟨d, hd, found, hfound, rfl, rfl⟩
    exact ⟨hd, hfound⟩
  · rintro ⟨hc, hvalue⟩
    exact ⟨c, hc, cell, hvalue, rfl, rfl⟩

theorem foldl_eq_found (columns : List Column) (value : Column → Option Cell) :
    columns.foldl (fun row c => row.push? c.name (value c)) empty =
      ofList (named (found columns value)) := by
  have hnamed : named (found columns value) =
      columns.filterMap fun c => (value c).map fun cell => (c.name, cell) := by
    rw [named, found, List.map_filterMap]
    exact List.filterMap_congr fun c _ => Option.map_map _ _ _
  have hrow := foldl_push?_filterMap columns Column.name value []
  rw [List.nil_append] at hrow
  rw [hnamed]
  exact hrow

theorem fills_found {grouping : Option Grouping} (h : ∀ c ∈ columns, c.Legal grouping)
    (value : Column → Option Cell) :
    Fills (found columns value)
      (columns.foldl (fun row c => row.push? c.name (value c)) empty) := by
  rw [foldl_eq_found]
  refine fills_of_legal (fun p hp => h _ (mem_found_iff.mp hp).1) fun c x y hx hy => ?_
  exact Option.some.inj ((mem_found_iff.mp hx).2.symm.trans (mem_found_iff.mp hy).2)

end Row

namespace Grouping

variable {g : Grouping}

def pushes (g : Grouping) : List Record → List (Column × Cell)
  | [] => []
  | first :: rest =>
      Row.found (g.keys.map .key) first.cell? ++
        g.rules.map fun r => (.apply r.name, r.aggregate.apply (r.values (first :: rest)))

theorem row_eq_pushes (g : Grouping) (group : List Record) :
    g.row group = Row.ofList (Row.named (g.pushes group)) := by
  cases group with
  | nil => rfl
  | cons first rest =>
      have hkeys : g.keys.foldl (fun row k => row.push? k.text (first.get? k.field)) .empty =
          Row.ofList (Row.named (Row.found (g.keys.map .key) first.cell?)) := by
        rw [← Row.foldl_eq_found, List.foldl_map]
        rfl
      have hrules : Row.named (g.rules.map fun r =>
          (.apply r.name, r.aggregate.apply (r.values (first :: rest)))) =
            g.ruleCells (first :: rest) := by
        rw [Row.named, List.map_map]
        rfl
      rw [pushes, Row.named_append, hrules]
      exact (congrArg (g.rules.foldl _) hkeys).trans
        (Row.foldl_push? g.rules Rule.name _ _ (fun _ _ => rfl) _)

theorem mem_pushes_iff {first : Record} {rest : List Record} {c : Column} {cell : Cell} :
    (c, cell) ∈ g.pushes (first :: rest) ↔
      (∃ k ∈ g.keys, c = .key k ∧ first.get? k.field = some cell) ∨
        ∃ r ∈ g.rules, c = .apply r.name ∧ cell = r.aggregate.apply (r.values (first :: rest)) := by
  rw [pushes, List.mem_append, Row.mem_found_iff, List.mem_map, List.mem_map]
  refine or_congr ?_ ?_
  · constructor
    · rintro ⟨⟨k, hk, rfl⟩, hcell⟩
      exact ⟨k, hk, rfl, hcell⟩
    · rintro ⟨k, hk, rfl, hcell⟩
      exact ⟨⟨k, hk, rfl⟩, hcell⟩
  · simp only [Prod.mk.injEq, eq_comm]

theorem Legal.fills_row (h : g.Legal) (group : List Record) :
    Row.Fills (g.pushes group) (g.row group) := by
  rw [row_eq_pushes]
  cases group with
  | nil => exact .empty
  | cons first rest =>
      have hlegal : ∀ p ∈ g.pushes (first :: rest), p.1.Legal (some g) := by
        rintro ⟨c, cell⟩ hp
        rcases mem_pushes_iff.mp hp with ⟨k, hk, rfl, _⟩ | ⟨r, hr, rfl, _⟩
        · exact ⟨h.proper k hk, fun _ hg => Option.some.inj hg ▸ hk⟩
        · exact ⟨(h.rules r hr).unseparated, g, rfl, r, hr, rfl⟩
      refine Row.fills_of_legal hlegal fun c x y hx hy => ?_
      rcases mem_pushes_iff.mp hx with ⟨k, _, rfl, hkx⟩ | ⟨r, hr, rfl, rfl⟩
      · rcases mem_pushes_iff.mp hy with ⟨l, _, hkl, hly⟩ | ⟨_, _, ⟨⟩, _⟩
        cases hkl
        exact Option.some.inj (hkx.symm.trans hly)
      · rcases mem_pushes_iff.mp hy with ⟨_, _, ⟨⟩, _⟩ | ⟨s, hs, hrs, rfl⟩
        cases List.inj_on_of_nodup_map h.distinct hr hs (Column.apply.inj hrs)
        rfl

end Grouping

namespace Bound

structure TellsApart (b : Bound) : Prop where
  columns : ∀ c ∈ b.query.columns, ∀ d ∈ b.query.columns, c.name = d.name ↔ c = d
  rules : ∀ g ∈ b.query.grouping, ∀ r ∈ g.rules, ∀ k : Key, r.name ≠ k.text
  grouped : ∀ g ∈ b.query.grouping, ∀ group, Row.Fills (g.pushes group) (g.row group)
  selected : ∀ row, Row.Fills (Row.found b.query.columns fun c => row.get? c.name)
    (Row.select b.query.columns row)
  projected : ∀ r : Record, Row.Fills (Row.found b.query.columns r.cell?)
    (Row.ofRecord b.dataset b.query.columns r)

theorem Accepted.tellsApart {b : Bound} (hb : b.Accepted) : b.TellsApart := by
  have hcolumns := hb.legal.columns
  constructor
  case columns =>
    intro c hc d hd
    exact ⟨(hcolumns c hc).eq_of_name_eq (hcolumns d hd), congrArg Column.name⟩
  case rules =>
    intro g hg r hr
    exact ((hb.legal.grouping g hg).rules r hr).name_ne_text
  case grouped => exact fun g hg => (hb.legal.grouping g hg).fills_row
  case selected => exact fun row => Row.fills_found hcolumns fun c => row.get? c.name
  case projected =>
    intro r
    rw [Row.ofRecord_eq_foldl fun k hk => hb.dataset_column hk]
    exact Row.fills_found hcolumns r.cell?

theorem columns_told_apart :
    (∀ raw, (Key.parse? raw).isSome ↔ raw.toList.count Key.separator = 1 ∧
      ∃ dataset field, dataset ≠ "" ∧ field ≠ "" ∧
        raw = dataset ++ String.singleton Key.separator ++ field) ∧
    (∀ raw k, Key.parse? raw = some k → k.text = raw) ∧
    (∀ k : Key, k.dataset ≠ "" → k.field ≠ "" → Key.separator ∉ k.dataset.toList →
      Key.separator ∉ k.field.toList → Key.parse? k.text = some k) ∧
    (∀ pushes row, Row.Fills pushes row → ∀ c cell, (c, cell) ∈ pushes →
      row.get? c.name = some cell) ∧
    ∀ known value b, ofJson known value = .ok b → b.TellsApart :=
  ⟨fun _ => Key.parse?_isSome_iff, fun _ _ => Key.text_of_parse?, fun _ => Key.parse?_text,
    fun _ _ hfills _ _ => hfills.get?_eq, fun _ _ _ hb => (accepted_of_ofJson hb).tellsApart⟩

end Bound

namespace Sample

def twofold : Grouping :=
  ⟨[⟨"marks", "dept"⟩, ⟨"marks", "dept"⟩], [⟨"dept", .max, ⟨"marks", "avg"⟩⟩]⟩

def repeated : Bound where
  dataset := "marks"
  kind := .courses
  query :=
    { filter := none
      columns := [.apply "dept", .key ⟨"marks", "dept"⟩, .apply "dept"]
      order := none
      grouping := some twofold }

def repeatedQuery : Json :=
  .obj
    [("OPTIONS", .obj [("COLUMNS", .arr [.str "dept", .str "marks_dept", .str "dept"])]),
      ("TRANSFORMATIONS",
        .obj
          [("APPLY", .arr [.obj [("dept", .obj [("MAX", .str "marks_avg")])]]),
            ("GROUP", .arr [.str "marks_dept", .str "marks_dept"])]),
      ("WHERE", .obj [])]

end Sample

theorem columns_told_apart_repeated :
    Bound.ofJson [("marks", .courses)] Sample.repeatedQuery = .ok Sample.repeated ∧
      Key.parse? "marks_dept" = some ⟨"marks", "dept"⟩ ∧ (Key.parse? "marks_dept_").isNone ∧
      Row.Fills
        [(.key ⟨"marks", "dept"⟩, .text "cpsc"), (.key ⟨"marks", "dept"⟩, .text "cpsc"),
          (.apply "dept", .number (.ofNat 90))]
        (Sample.twofold.row [Sample.course "cpsc" 80, Sample.course "cpsc" 90]) := by
  have haccepted :
      Bound.ofJson [("marks", .courses)] Sample.repeatedQuery = .ok Sample.repeated := rfl
  have hpushes : Sample.twofold.pushes [Sample.course "cpsc" 80, Sample.course "cpsc" 90] =
      [(.key ⟨"marks", "dept"⟩, .text "cpsc"), (.key ⟨"marks", "dept"⟩, .text "cpsc"),
        (.apply "dept", .number (.ofNat 90))] := by
    decide +kernel
  obtain ⟨hsome, _, hparse, _, hbound⟩ := Bound.columns_told_apart
  refine ⟨haccepted, ?_, ?_, ?_⟩
  · exact hparse ⟨"marks", "dept"⟩ (by decide) (by decide) (by decide) (by decide)
  · rw [Option.isNone_iff_eq_none, ← Option.not_isSome_iff_eq_none, hsome]
    exact fun h => absurd h.1 (by decide)
  · rw [← hpushes]
    exact (hbound _ _ _ haccepted).grouped Sample.twofold rfl _

end Registrar
