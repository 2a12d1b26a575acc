import Registrar.Proofs.Query.Filter
import Registrar.Proofs.Query.Grouping
import Registrar.Proofs.Query.Order

namespace Registrar

namespace Query

structure Legal (q : Query) : Prop where
  nonempty : q.columns ≠ []
  columns : ∀ c ∈ q.columns, c.Legal q.grouping
  order : ∀ o ∈ q.order, o.Legal q.columnNames
  grouping : ∀ g ∈ q.grouping, g.Legal

inductive WhereWritten : Option Filter → Json → Prop
  | everything : WhereWritten none (.obj [])
  | filter {f : Filter} {value : Json} (body : f.Written value) : WhereWritten (some f) value

inductive OptionsWritten (columns : List Column) (order : Option Order) : Json → Prop
  | sections {members : Keyed Json} (exactly : Shape.Exactly ["COLUMNS"] ["ORDER"] members)
      (listed : Keyed.find? members "COLUMNS" = some (.arr (columns.map Column.toJson)))
      (ordered : Option.Rel Order.Written order (Keyed.find? members "ORDER")) :
      OptionsWritten columns order (.obj members)

inductive Written (q : Query) : Json → Prop
  | sections {members : Keyed Json} {condition options : Json}
      (exactly : Shape.Exactly ["WHERE", "OPTIONS"] ["TRANSFORMATIONS"] members)
      (narrowed : Keyed.find? members "WHERE" = some condition)
      (shaped : Keyed.find? members "OPTIONS" = some options)
      (filtered : WhereWritten q.filter condition)
      (selected : OptionsWritten q.columns q.order options)
      (grouped : Option.Rel Grouping.Written q.grouping (Keyed.find? members "TRANSFORMATIONS")) :
      Written q (.obj members)

theorem readWhere_eq_ok_iff {value : Json} {filter : Option Filter} :
    readWhere value = .ok filter ↔ WhereWritten filter value := by
  simp only [readWhere, Except.bind_eq_ok_iff, Shape.object_eq_ok_iff]
  constructor
  · rintro ⟨members, rfl, h⟩
    split at h
    · next hempty =>
      cases List.isEmpty_iff.mp hempty
      cases Except.pure_eq_ok_iff.mp h
      exact .everything
    · simp only [Except.bind_eq_ok_iff, Except.pure_eq_ok_iff, Filter.ofJson_eq_ok_iff] at h
      obtain ⟨f, hf, rfl⟩ := h
      exact .filter hf
  · intro h
    cases h with
    | everything => exact ⟨[], rfl, rfl⟩
    | @filter f value body =>
        obtain ⟨members, rfl⟩ := Filter.object_of_written body
        refine ⟨members, rfl, ?_⟩
        have hfull : ¬members.isEmpty = true := by
          intro hempty
          cases List.isEmpty_iff.mp hempty
          cases body
        rw [if_neg hfull, Filter.ofJson_eq_ok_iff.mpr body]
        rfl

theorem optional_eq_ok_iff {α : Type} {read : Json → Except Rejection α} {legal : α → Prop}
    {written : α → Json → Prop} (h : ∀ value a, read value = .ok a ↔ legal a ∧ written a value)
    (found : Option Json) {result : Option α} :
    (match found with
      | some value => do return some (← read value)
      | none => return none) = .ok result ↔
      (∀ a ∈ result, legal a) ∧ Option.Rel written result found := by
  cases found with
  | some value =>
      simp only [Except.bind_eq_ok_iff, Except.pure_eq_ok_iff, h]
      constructor
      · rintro ⟨a, ⟨hlegal, hwritten⟩, rfl⟩
        exact ⟨fun b hb => Option.some.inj hb ▸ hlegal, .some hwritten⟩
      · rintro ⟨hlegal, @⟨a, _, hwritten⟩⟩
        exact ⟨a, ⟨hlegal a rfl, hwritten⟩, rfl⟩
  | none =>
      rw [Except.pure_eq_ok_iff]
      constructor
      · rintro rfl
        exact ⟨nofun, .none⟩
      · rintro ⟨_, ⟨⟩⟩
        rfl

theorem readOrder_eq_ok_iff {columns : List String} {options : Keyed Json} {order : Option Order} :
    readOrder columns options = .ok order ↔
      (∀ o ∈ order, o.Legal columns) ∧
        Option.Rel Order.Written order (Keyed.find? options "ORDER") :=
  optional_eq_ok_iff (fun _ _ => Order.ofJson_eq_ok_iff) _

theorem readGrouping_eq_ok_iff {sections : Keyed Json} {grouping : Option Grouping} :
    readGrouping sections = .ok grouping ↔
      (∀ g ∈ grouping, g.Legal) ∧
        Option.Rel Grouping.Written grouping (Keyed.find? sections "TRANSFORMATIONS") :=
  optional_eq_ok_iff (fun _ _ => Grouping.ofJson_eq_ok_iff) _

theorem readOptions_eq_ok_iff {grouping : Option Grouping} {value : Json} {columns : List Column}
    {order : Option Order} :
    readOptions grouping value = .ok (columns, order) ↔
      (columns ≠ [] ∧ (∀ c ∈ columns, c.Legal grouping) ∧
        ∀ o ∈ order, o.Legal (columns.map Column.name)) ∧ OptionsWritten columns order value := by
  simp only [readOptions, Except.bind_eq_ok_iff, Shape.object_eq_ok_iff, Shape.member_eq_ok_iff,
    Shape.nonEmptyArray_eq_ok_iff, Except.mapM_eq_ok_iff fun _ _ => Column.ofJson_eq_ok_iff,
    readOrder_eq_ok_iff, Except.pure_eq_ok_iff, Prod.mk.injEq]
  constructor
  · rintro ⟨members, rfl, _, hexact, _, hlisted, _, ⟨rfl, hne⟩, _, ⟨hcolumns, rfl⟩, _,
      ⟨horder, hordered⟩, rfl, rfl⟩
    refine ⟨⟨?_, hcolumns, horder⟩,
      .sections (Shape.exactKeys_eq_ok_iff.mp hexact) hlisted hordered⟩
    exact fun hnil => hne (List.map_eq_nil_iff.mpr hnil)
  · rintro ⟨⟨hne, hcolumns, horder⟩, @⟨members, hexact, hlisted, hordered⟩⟩
    refine ⟨members, rfl, (), Shape.exactKeys_eq_ok_iff.mpr hexact, _, hlisted, _, ⟨rfl, ?_⟩,
      columns, ⟨hcolumns, rfl⟩, order, ⟨horder, hordered⟩, rfl, rfl⟩
    exact fun hnil => hne (List.map_eq_nil_iff.mp hnil)

theorem ofJson_eq_ok_iff {value : Json} {q : Query} :
    ofJson value = .ok q ↔ q.Legal ∧ q.Written value := by
  simp only [ofJson, Except.bind_eq_ok_iff, Shape.object_eq_ok_iff, Shape.member_eq_ok_iff,
    readGrouping_eq_ok_iff, readWhere_eq_ok_iff]
  constructor
  · rintro ⟨members, rfl, _, hexact, grouping, ⟨hgrouping, hgrouped⟩, _, hwhere, filter, hfilter,
      _, hoptions, ⟨columns, order⟩, hselect, h⟩
    cases Except.pure_eq_ok_iff.mp h
    obtain ⟨⟨hne, hcolumns, horder⟩, hselected⟩ := readOptions_eq_ok_iff.mp hselect
    exact ⟨⟨hne, hcolumns, horder, hgrouping⟩, .sections (Shape.exactKeys_eq_ok_iff.mp hexact)
      hwhere hoptions hfilter hselected hgrouped⟩
  · rintro ⟨⟨hne, hcolumns, horder, hgrouping⟩,
      @⟨members, condition, options, hexact, hwhere, hoptions, hfilter, hselected, hgrouped⟩⟩
    exact ⟨members, rfl, (), Shape.exactKeys_eq_ok_iff.mpr hexact, q.grouping,
      ⟨hgrouping, hgrouped⟩, condition, hwhere, q.filter, hfilter, options, hoptions,
      (q.columns, q.order), readOptions_eq_ok_iff.mpr ⟨⟨hne, hcolumns, horder⟩, hselected⟩, rfl⟩

end Query

namespace Json

def Names (value : Json) (id : String) : Prop :=
  ∃ q : Query, q.Legal ∧ q.Written value ∧ ∃ k ∈ q.keys, k.dataset = id

def IsMalformed (value : Json) : Prop := ∀ q : Query, q.Legal → ¬q.Written value

theorem names_iff_of_ofJson {value : Json} {q : Query} (h : Query.ofJson value = .ok q)
    {id : String} : value.Names id ↔ ∃ k ∈ q.keys, k.dataset = id := by
  constructor
  · rintro ⟨other, hlegal, hwritten, hid⟩
    cases h.symm.trans (Query.ofJson_eq_ok_iff.mpr ⟨hlegal, hwritten⟩)
    exact hid
  · intro hid
    obtain ⟨hlegal, hwritten⟩ := Query.ofJson_eq_ok_iff.mp h
    exact ⟨q, hlegal, hwritten, hid⟩

theorem isMalformed_iff {value : Json} :
    value.IsMalformed ↔ ∃ cause, Query.ofJson value = .error cause := by
  cases h : Query.ofJson value with
  | error cause =>
      refine iff_of_true (fun q hlegal hwritten => ?_) ⟨cause, rfl⟩
      cases h.symm.trans (Query.ofJson_eq_ok_iff.mpr ⟨hlegal, hwritten⟩)
  | ok q =>
      refine iff_of_false (fun hmalformed => ?_) nofun
      obtain ⟨hlegal, hwritten⟩ := Query.ofJson_eq_ok_iff.mp h
      exact hmalformed q hlegal hwritten

end Json

end Registrar
