import Registrar.Proofs.Query.Acceptance
import Registrar.Proofs.Query.Pattern

theorem List.exists_eq_map {α β : Type} {p : β → Prop} {write : β → α} {xs : List α}
    (h : ∀ x ∈ xs, ∃ y, p y ∧ x = write y) :
    ∃ ys : List β, (∀ y ∈ ys, p y) ∧ xs = ys.map write := by
  induction xs with
  | nil => exact ⟨[], nofun, rfl⟩
  | cons x xs ih =>
      obtain ⟨⟨y, hy, rfl⟩, hxs⟩ := List.forall_mem_cons.mp h
      obtain ⟨ys, hys, rfl⟩ := ih hxs
      exact ⟨y :: ys, List.forall_mem_cons.mpr ⟨hy, hys⟩, rfl⟩

namespace Registrar.Grammar

open Query

section

variable (id : String) (kind : Kind)

def IsKey (classes : List FieldClass) (raw : String) : Prop :=
  ∃ k : Key, k.Proper ∧ k.dataset = id ∧ kind.classify k.field ∈ classes ∧ raw = k.text

def anyClass : List FieldClass := [.numeric, .textual]

def classesOf (a : Aggregate) : List FieldClass :=
  if a.requiresNumeric then [.numeric] else anyClass

inductive IsFilter : Json → Prop
  | not {inner : Json} (body : IsFilter inner) : IsFilter (.obj [("NOT", inner)])
  | and {items : List Json} (nonempty : items ≠ []) (body : ∀ item ∈ items, IsFilter item) :
      IsFilter (.obj [("AND", .arr items)])
  | or {items : List Json} (nonempty : items ≠ []) (body : ∀ item ∈ items, IsFilter item) :
      IsFilter (.obj [("OR", .arr items)])
  | number {token raw : String} {literal : Json} (compared : token ∈ ["GT", "LT", "EQ"])
      (key : IsKey id kind [.numeric] raw) (isNumber : literal.number?.isSome) :
      IsFilter (.obj [(token, .obj [(raw, literal)])])
  | text {raw pattern : String} (key : IsKey id kind [.textual] raw)
      (legal : Pattern.Legal pattern) : IsFilter (.obj [("IS", .obj [(raw, .str pattern)])])

inductive IsWhere : Json → Prop
  | everything : IsWhere (.obj [])
  | filter {value : Json} (body : IsFilter id kind value) : IsWhere value

inductive IsRule (name : String) : Json → Prop
  | rule {raw : String} (aggregate : Aggregate) (nonempty : name ≠ "")
      (unseparated : Key.separator ∉ name.toList)
      (key : IsKey id kind (classesOf aggregate) raw) :
      IsRule name (.obj [(name, .obj [(aggregate.token, .str raw)])])

inductive IsGrouping (group names : List String) : Json → Prop
  | sections {members : Keyed Json} {items : List Json}
      (exactly : Shape.Exactly ["GROUP", "APPLY"] [] members)
      (grouped : Keyed.find? members "GROUP" = some (.arr (group.map .str)))
      (nonempty : group ≠ []) (keys : ∀ raw ∈ group, IsKey id kind anyClass raw)
      (applied : Keyed.find? members "APPLY" = some (.arr items))
      (rules : List.Forall₂ (IsRule id kind) names items) (distinct : names.Nodup) :
      IsGrouping group names (.obj members)

end

inductive IsOrder (columns : List String) : Json → Prop
  | single {key : String} (within : key ∈ columns) : IsOrder columns (.str key)
  | composite {members : Keyed Json} {directionKey token : String} {keys : List String}
      (named : directionKey ∈ ["dir", "direction"])
      (exactly : Shape.Exactly ["keys", directionKey] [] members)
      (directed : Keyed.find? members directionKey = some (.str token))
      (direction : token ∈ ["UP", "DOWN"])
      (listed : Keyed.find? members "keys" = some (.arr (keys.map .str)))
      (nonempty : keys ≠ []) (within : ∀ key ∈ keys, key ∈ columns) :
      IsOrder columns (.obj members)

inductive IsOptions (isColumn : String → Prop) : Json → Prop
  | sections {members : Keyed Json} {columns : List String}
      (exactly : Shape.Exactly ["COLUMNS"] ["ORDER"] members)
      (listed : Keyed.find? members "COLUMNS" = some (.arr (columns.map .str)))
      (nonempty : columns ≠ []) (legal : ∀ name ∈ columns, isColumn name)
      (ordered : ∀ order, Keyed.find? members "ORDER" = some order → IsOrder columns order) :
      IsOptions isColumn (.obj members)

inductive IsQuery (id : String) (kind : Kind) : Json → Prop
  | plain {members : Keyed Json} {condition options : Json}
      (exactly : Shape.Exactly ["WHERE", "OPTIONS"] [] members)
      (narrowed : Keyed.find? members "WHERE" = some condition)
      (shaped : Keyed.find? members "OPTIONS" = some options)
      (filtered : IsWhere id kind condition)
      (selected : IsOptions (IsKey id kind anyClass) options) : IsQuery id kind (.obj members)
  | grouped {members : Keyed Json} {condition options transformations : Json}
      {group names : List String}
      (exactly : Shape.Exactly ["WHERE", "OPTIONS", "TRANSFORMATIONS"] [] members)
      (narrowed : Keyed.find? members "WHERE" = some condition)
      (shaped : Keyed.find? members "OPTIONS" = some options)
      (transformed : Keyed.find? members "TRANSFORMATIONS" = some transformations)
      (filtered : IsWhere id kind condition)
      (partitioned : IsGrouping id kind group names transformations)
      (selected : IsOptions (fun name => name ∈ group ∨ name ∈ names) options) :
      IsQuery id kind (.obj members)

variable {id : String} {kind : Kind} {value : Json}

theorem mem_anyClass_iff {c : FieldClass} : c ∈ anyClass ↔ c ≠ .unknown := by
  cases c <;> decide

theorem mem_classesOf_iff {a : Aggregate} {c : FieldClass} :
    c ∈ classesOf a ↔ c ≠ .unknown ∧ (a.requiresNumeric = true → c = .numeric) := by
  cases a <;> cases c <;> decide

theorem mem_comparisons_iff {token : String} :
    token ∈ ["GT", "LT", "EQ"] ↔ ∃ c : Comparison, token = c.token := by
  constructor
  · intro h
    simp only [List.mem_cons, List.not_mem_nil, or_false] at h
    rcases h with rfl | rfl | rfl
    · exact ⟨.greater, rfl⟩
    · exact ⟨.less, rfl⟩
    · exact ⟨.equal, rfl⟩
  · rintro ⟨c, rfl⟩
    cases c <;> decide

theorem mem_directions_iff {token : String} :
    token ∈ ["UP", "DOWN"] ↔ ∃ d : Direction, token = d.token := by
  constructor
  · intro h
    simp only [List.mem_cons, List.not_mem_nil, or_false] at h
    rcases h with rfl | rfl
    · exact ⟨.up, rfl⟩
    · exact ⟨.down, rfl⟩
  · rintro ⟨d, rfl⟩
    cases d <;> decide

mutual

theorem isFilter_of_written : ∀ {f : Filter} {value : Json}, f.Written value → f.Typed kind →
    (∀ k ∈ f.keys, k.dataset = id) → IsFilter id kind value
  | _, _, .not body, htyped, hid => .not (isFilter_of_written body htyped hid)
  | _, _, .and nonempty body, htyped, hid =>
      .and (body.ne_nil_iff.mp nonempty) (forall_isFilter_of_written body htyped hid)
  | _, _, .or nonempty body, htyped, hid =>
      .or (body.ne_nil_iff.mp nonempty) (forall_isFilter_of_written body htyped hid)
  | _, _, .number c proper hx, htyped, hid => by
      refine .number (mem_comparisons_iff.mpr ⟨c, rfl⟩) ?_ (Option.isSome_of_eq_some hx)
      exact ⟨_, proper, hid _ List.mem_cons_self, List.mem_singleton.mpr htyped, rfl⟩
  | _, _, .text proper hpattern, htyped, hid => by
      refine .text ?_ ((Pattern.parse?_isSome_iff _).mp (Option.isSome_of_eq_some hpattern))
      exact ⟨_, proper, hid _ List.mem_cons_self, List.mem_singleton.mpr htyped, rfl⟩

theorem forall_isFilter_of_written : ∀ {parts : List Filter} {items : List Json},
    Filter.ListWritten parts items → Filter.ListTyped kind parts →
    (∀ k ∈ Filter.listKeys parts, k.dataset = id) → ∀ item ∈ items, IsFilter id kind item
  | _, _, .nil, _, _ => nofun
  | _, _, .cons head tail, ⟨hhead, htail⟩, hid => by
      obtain ⟨hidhead, hidtail⟩ := List.forall_mem_append.mp hid
      refine List.forall_mem_cons.mpr ⟨isFilter_of_written head hhead hidhead, ?_⟩
      exact forall_isFilter_of_written tail htail hidtail

end

theorem exists_listWritten {items : List Json}
    (h : ∀ item ∈ items, ∃ f : Filter,
      f.Written item ∧ f.Typed kind ∧ ∀ k ∈ f.keys, k.dataset = id) :
    ∃ parts, Filter.ListWritten parts items ∧ Filter.ListTyped kind parts ∧
      ∀ k ∈ Filter.listKeys parts, k.dataset = id := by
  induction items with
  | nil => exact ⟨[], .nil, trivial, nofun⟩
  | cons item items ih =>
      obtain ⟨⟨f, hwritten, htyped, hid⟩, hitems⟩ := List.forall_mem_cons.mp h
      obtain ⟨parts, hparts, htyped', hid'⟩ := ih hitems
      exact ⟨f :: parts, .cons hwritten hparts, ⟨htyped, htyped'⟩,
        List.forall_mem_append.mpr ⟨hid, hid'⟩⟩

theorem exists_written_of_isFilter (h : IsFilter id kind value) :
    ∃ f : Filter, f.Written value ∧ f.Typed kind ∧ ∀ k ∈ f.keys, k.dataset = id := by
  induction h with
  | not _ ih =>
      obtain ⟨f, hwritten, htyped, hid⟩ := ih
      exact ⟨.not f, .not hwritten, htyped, hid⟩
  | and nonempty _ ih =>
      obtain ⟨parts, hparts, htyped, hid⟩ := exists_listWritten ih
      exact ⟨.and parts, .and (hparts.ne_nil_iff.mpr nonempty) hparts, htyped, hid⟩
  | or nonempty _ ih =>
      obtain ⟨parts, hparts, htyped, hid⟩ := exists_listWritten ih
      exact ⟨.or parts, .or (hparts.ne_nil_iff.mpr nonempty) hparts, htyped, hid⟩
  | number compared key isNumber =>
      obtain ⟨c, rfl⟩ := mem_comparisons_iff.mp compared
      obtain ⟨k, hk, hid, hclass, rfl⟩ := key
      obtain ⟨x, hx⟩ := Option.isSome_iff_exists.mp isNumber
      refine ⟨.number c k x, .number c hk hx, List.mem_singleton.mp hclass, ?_⟩
      exact List.forall_mem_singleton.mpr hid
  | text key legal =>
      obtain ⟨k, hk, hid, hclass, rfl⟩ := key
      obtain ⟨p, hp⟩ := Option.isSome_iff_exists.mp ((Pattern.parse?_isSome_iff _).mpr legal)
      refine ⟨.text k p, .text hk hp, List.mem_singleton.mp hclass, ?_⟩
      exact List.forall_mem_singleton.mpr hid

theorem isFilter_iff : IsFilter id kind value ↔
    ∃ f : Filter, f.Written value ∧ f.Typed kind ∧ ∀ k ∈ f.keys, k.dataset = id :=
  ⟨exists_written_of_isFilter, fun ⟨_, hwritten, htyped, hid⟩ =>
    isFilter_of_written hwritten htyped hid⟩

theorem isWhere_iff : IsWhere id kind value ↔
    ∃ filter, WhereWritten filter value ∧
      ∀ f ∈ filter, f.Typed kind ∧ ∀ k ∈ f.keys, k.dataset = id := by
  constructor
  · intro h
    cases h with
    | everything => exact ⟨none, .everything, nofun⟩
    | filter body =>
        obtain ⟨f, hwritten, hf⟩ := isFilter_iff.mp body
        exact ⟨some f, .filter hwritten, fun _ h => Option.some.inj h ▸ hf⟩
  · rintro ⟨_, ⟨⟩ | hwritten, hf⟩
    · exact .everything
    · exact .filter (isFilter_iff.mpr ⟨_, hwritten, hf _ rfl⟩)

theorem isRule_iff {name : String} : IsRule id kind name value ↔
    ∃ r : Rule, (r.Legal ∧ r.Typed kind ∧ r.key.dataset = id) ∧ name = r.name ∧
      value = r.toJson := by
  constructor
  · rintro @⟨_, a, hne, hsep, k, hk, hid, hclass, rfl⟩
    exact ⟨⟨name, a, k⟩, ⟨⟨hne, hsep, hk⟩, mem_classesOf_iff.mp hclass, hid⟩, rfl, rfl⟩
  · rintro ⟨r, ⟨hlegal, htyped, hid⟩, rfl, rfl⟩
    refine .rule r.aggregate hlegal.nonempty hlegal.unseparated ?_
    exact ⟨r.key, hlegal.proper, hid, mem_classesOf_iff.mpr htyped, rfl⟩

theorem forall₂_isRule_iff {names : List String} {items : List Json} :
    List.Forall₂ (IsRule id kind) names items ↔
      ∃ rules : List Rule, (∀ r ∈ rules, r.Legal ∧ r.Typed kind ∧ r.key.dataset = id) ∧
        names = rules.map Rule.name ∧ items = rules.map Rule.toJson := by
  constructor
  · intro h
    induction h with
    | nil => exact ⟨[], nofun, rfl, rfl⟩
    | cons hrule _ ih =>
        obtain ⟨r, hr, rfl, rfl⟩ := isRule_iff.mp hrule
        obtain ⟨rules, hrules, rfl, rfl⟩ := ih
        exact ⟨r :: rules, List.forall_mem_cons.mpr ⟨hr, hrules⟩, rfl, rfl⟩
  · rintro ⟨rules, hrules, rfl, rfl⟩
    rw [List.forall₂_map_left_iff, List.forall₂_map_right_iff, List.forall₂_same]
    exact fun r hr => isRule_iff.mpr ⟨r, hrules r hr, rfl, rfl⟩

structure Fits (id : String) (kind : Kind) (g : Grouping) : Prop where
  legal : g.Legal
  typed : g.Typed kind
  keys : ∀ k ∈ g.keys, k.dataset = id
  rules : ∀ r ∈ g.rules, r.key.dataset = id

theorem isGrouping_iff {group names : List String} : IsGrouping id kind group names value ↔
    ∃ g : Grouping, Fits id kind g ∧ g.Written value ∧ group = g.keys.map Key.text ∧
      names = g.rules.map Rule.name := by
  constructor
  · rintro @⟨members, items, hexact, hgroup, hne, hraw, happly, hrules, hdistinct⟩
    obtain ⟨rules, hall, rfl, rfl⟩ := forall₂_isRule_iff.mp hrules
    have hwrite : ∀ raw ∈ group, ∃ k : Key,
        (k.Proper ∧ k.dataset = id ∧ kind.classify k.field ≠ .unknown) ∧ raw = k.text := by
      intro raw hmem
      obtain ⟨k, hk, hid, hclass, rfl⟩ := hraw raw hmem
      exact ⟨k, ⟨hk, hid, mem_anyClass_iff.mp hclass⟩, rfl⟩
    obtain ⟨keys, hkeys, rfl⟩ := List.exists_eq_map hwrite
    refine ⟨⟨keys, rules⟩, ⟨⟨?_, fun k hk => (hkeys k hk).1, fun r hr => (hall r hr).1, hdistinct⟩,
      ⟨fun k hk => (hkeys k hk).2.2, fun r hr => (hall r hr).2.1⟩, fun k hk => (hkeys k hk).2.1,
      fun r hr => (hall r hr).2.2⟩, .sections hexact ?_ happly, rfl, rfl⟩
    · rintro rfl
      exact hne rfl
    · rw [hgroup, List.map_map]
      rfl
  · rintro ⟨g, ⟨hlegal, htyped, hkeys, hrules⟩, @⟨members, hexact, hgroup, happly⟩, rfl, rfl⟩
    refine .sections hexact ?_ ?_ ?_ happly ?_ hlegal.distinct
    · rw [hgroup, List.map_map]
      rfl
    · exact fun hnil => hlegal.nonempty (List.map_eq_nil_iff.mp hnil)
    · rw [List.forall_mem_map]
      intro k hk
      exact ⟨k, hlegal.proper k hk, hkeys k hk, mem_anyClass_iff.mpr (htyped.keys k hk), rfl⟩
    · refine forall₂_isRule_iff.mpr ⟨g.rules, fun r hr => ?_, rfl, rfl⟩
      exact ⟨hlegal.rules r hr, htyped.rules r hr, hrules r hr⟩

theorem isOrder_iff {columns : List String} :
    IsOrder columns value ↔ ∃ o : Order, o.Legal columns ∧ o.Written value := by
  constructor
  · intro h
    cases h with
    | @single key within =>
        refine ⟨.single key, ⟨List.cons_ne_nil _ _, ?_⟩, .single key⟩
        exact List.forall_mem_singleton.mpr within
    | @composite _ _ _ keys named exactly directed direction listed nonempty within =>
        obtain ⟨d, rfl⟩ := mem_directions_iff.mp direction
        exact ⟨.composite d keys, ⟨nonempty, within⟩,
          .composite d keys named exactly directed listed⟩
  · rintro ⟨o, ⟨hne, hwithin⟩, hwritten⟩
    cases hwritten with
    | single key => exact .single (List.forall_mem_singleton.mp hwithin)
    | composite d keys named exactly directed listed =>
        exact .composite named exactly directed (mem_directions_iff.mpr ⟨d, rfl⟩) listed hne hwithin

theorem isOptions_iff {isColumn : String → Prop} {p : Column → Prop}
    (h : ∀ name, isColumn name ↔ ∃ c : Column, p c ∧ name = c.name) :
    IsOptions isColumn value ↔
      ∃ (columns : List Column) (order : Option Order), columns ≠ [] ∧ (∀ c ∈ columns, p c) ∧
        (∀ o ∈ order, o.Legal (columns.map Column.name)) ∧
        OptionsWritten columns order value := by
  have htexts (columns : List Column) :
      (columns.map Column.name).map Json.str = columns.map Column.toJson := List.map_map
  constructor
  · rintro @⟨members, names, hexact, hlisted, hne, hlegal, hordered⟩
    obtain ⟨columns, hcolumns, rfl⟩ :=
      List.exists_eq_map fun name hname => (h name).mp (hlegal name hname)
    rw [htexts] at hlisted
    have hnonempty : columns ≠ [] := fun hnil => hne (List.map_eq_nil_iff.mpr hnil)
    cases hfind : Keyed.find? members "ORDER" with
    | none =>
        exact ⟨columns, none, hnonempty, hcolumns, nofun,
          .sections hexact hlisted (hfind ▸ .none)⟩
    | some order =>
        obtain ⟨o, ho, hwritten⟩ := isOrder_iff.mp (hordered order hfind)
        exact ⟨columns, some o, hnonempty, hcolumns, fun _ h => Option.some.inj h ▸ ho,
          .sections hexact hlisted (hfind ▸ .some hwritten)⟩
  · rintro ⟨columns, order, hne, hcolumns, horder, @⟨members, hexact, hlisted, hordered⟩⟩
    rw [← htexts] at hlisted
    refine .sections hexact hlisted (fun hnil => hne (List.map_eq_nil_iff.mp hnil)) ?_ ?_
    · rw [List.forall_mem_map]
      exact fun c hc => (h c.name).mpr ⟨c, hcolumns c hc, rfl⟩
    · intro value hvalue
      rw [hvalue] at hordered
      obtain @⟨o, _, hwritten⟩ := hordered
      exact isOrder_iff.mpr ⟨o, horder o rfl, hwritten⟩

structure FitsColumn (id : String) (kind : Kind) (grouping : Option Grouping) (c : Column) :
    Prop where
  legal : c.Legal grouping
  known : c.Known kind
  dataset : ∀ k, c = .key k → k.dataset = id

theorem isKey_iff_column {name : String} : IsKey id kind anyClass name ↔
    ∃ c : Column, FitsColumn id kind none c ∧ name = c.name := by
  constructor
  · rintro ⟨k, hk, hid, hclass, rfl⟩
    refine ⟨.key k, ⟨⟨hk, nofun⟩, mem_anyClass_iff.mp hclass, ?_⟩, rfl⟩
    rintro _ ⟨⟩
    exact hid
  · rintro ⟨c, ⟨hlegal, hknown, hid⟩, rfl⟩
    cases c with
    | key k => exact ⟨k, hlegal.1, hid k rfl, mem_anyClass_iff.mpr hknown, rfl⟩
    | apply name =>
        obtain ⟨_, _, hg, _⟩ := hlegal
        cases hg

theorem mem_names_iff_column {g : Grouping} (hg : Fits id kind g) {name : String} :
    name ∈ g.keys.map Key.text ∨ name ∈ g.rules.map Rule.name ↔
      ∃ c : Column, FitsColumn id kind (some g) c ∧ name = c.name := by
  constructor
  · rintro (h | h)
    · obtain ⟨k, hk, rfl⟩ := List.mem_map.mp h
      refine ⟨.key k, ⟨⟨hg.legal.proper k hk, fun _ h => Option.some.inj h ▸ hk⟩,
        hg.typed.keys k hk, ?_⟩, rfl⟩
      rintro _ ⟨⟩
      exact hg.keys k hk
    · obtain ⟨r, hr, rfl⟩ := List.mem_map.mp h
      exact ⟨.apply r.name, ⟨⟨(hg.legal.rules r hr).unseparated, g, rfl, r, hr, rfl⟩, trivial,
        nofun⟩, rfl⟩
  · rintro ⟨c, ⟨hlegal, _, _⟩, rfl⟩
    cases c with
    | key k => exact .inl (List.mem_map_of_mem (hlegal.2 g rfl))
    | apply name =>
        obtain ⟨_, _, ⟨⟩, r, hr, rfl⟩ := hlegal
        exact .inr (List.mem_map_of_mem hr)

variable {required : List String} {name : String} {members : Keyed Json}

theorem exactly_optional_absent (h : Keyed.find? members name = none) :
    Shape.Exactly required [name] members ↔ Shape.Exactly required [] members := by
  have habsent : name ∉ members.keys := by
    rw [← Keyed.find?_isSome_iff, h]
    nofun
  refine and_congr_right fun _ => forall₂_congr fun key hkey => or_congr_right ?_
  constructor
  · intro hname
    exact absurd (List.mem_singleton.mp hname ▸ hkey) habsent
  · nofun

theorem exactly_optional_present {found : Json} (h : Keyed.find? members name = some found) :
    Shape.Exactly required [name] members ↔ Shape.Exactly (required ++ [name]) [] members := by
  have hpresent : name ∈ members.keys := by
    rw [← Keyed.find?_isSome_iff, h]
    rfl
  have hrequired : (∀ key ∈ required, key ∈ members.keys) ↔
      ∀ key ∈ required ++ [name], key ∈ members.keys := by
    rw [List.forall_mem_append, List.forall_mem_singleton, and_iff_left hpresent]
  simp only [Shape.Exactly, hrequired, List.mem_append, List.not_mem_nil, or_false]

theorem fits_query_iff {q : Query} :
    (q.Legal ∧ q.Typed kind ∧ ∀ k ∈ q.keys, k.dataset = id) ↔
      (∀ f ∈ q.filter, f.Typed kind ∧ ∀ k ∈ f.keys, k.dataset = id) ∧
        (∀ g ∈ q.grouping, Fits id kind g) ∧ q.columns ≠ [] ∧
        (∀ c ∈ q.columns, FitsColumn id kind q.grouping c) ∧
        ∀ o ∈ q.order, o.Legal q.columnNames := by
  simp only [Query.mem_keys_iff]
  constructor
  · rintro ⟨⟨hne, hcolumns, horder, hlegal⟩, ⟨hfilter, hknown, htyped⟩, hid⟩
    refine ⟨fun f hf => ⟨hfilter f hf, fun k hk => hid k (.inl ⟨f, hf, hk⟩)⟩, fun g hg => ?_, hne,
      fun c hc => ⟨hcolumns c hc, hknown c hc, fun k hk => hid k (.inr (.inl (hk ▸ hc)))⟩, horder⟩
    exact ⟨hlegal g hg, htyped g hg, fun k hk => hid k (.inr (.inr ⟨g, hg, .inl hk⟩)),
      fun r hr => hid r.key (.inr (.inr ⟨g, hg, .inr ⟨r, hr, rfl⟩⟩))⟩
  · rintro ⟨hfilter, hgrouping, hne, hcolumns, horder⟩
    refine ⟨⟨hne, fun c hc => (hcolumns c hc).legal, horder, fun g hg => (hgrouping g hg).legal⟩,
      ⟨fun f hf => (hfilter f hf).1, fun c hc => (hcolumns c hc).known,
        fun g hg => (hgrouping g hg).typed⟩, ?_⟩
    rintro k (⟨f, hf, hk⟩ | hk | ⟨g, hg, hk | ⟨r, hr, rfl⟩⟩)
    · exact (hfilter f hf).2 k hk
    · exact (hcolumns _ hk).dataset k rfl
    · exact (hgrouping g hg).keys k hk
    · exact (hgrouping g hg).rules r hr

theorem exists_written_of_isQuery (h : IsQuery id kind value) :
    ∃ q : Query, (q.Legal ∧ q.Typed kind ∧ ∀ k ∈ q.keys, k.dataset = id) ∧ q.Written value := by
  simp only [fits_query_iff]
  cases h with
  | plain exactly narrowed shaped filtered selected =>
      obtain ⟨filter, hwhere, hfilter⟩ := isWhere_iff.mp filtered
      obtain ⟨columns, order, hne, hcolumns, horder, hoptions⟩ :=
        (isOptions_iff fun _ => isKey_iff_column).mp selected
      have habsent : Keyed.find? _ "TRANSFORMATIONS" = none :=
        exactly.find?_eq_none (by decide) List.not_mem_nil
      refine ⟨⟨filter, columns, order, none⟩, ⟨hfilter, nofun, hne, hcolumns, horder⟩, ?_⟩
      exact .sections ((exactly_optional_absent habsent).mpr exactly) narrowed shaped hwhere
        hoptions (habsent ▸ .none)
  | grouped exactly narrowed shaped transformed filtered partitioned selected =>
      obtain ⟨filter, hwhere, hfilter⟩ := isWhere_iff.mp filtered
      obtain ⟨g, hg, hwritten, rfl, rfl⟩ := isGrouping_iff.mp partitioned
      obtain ⟨columns, order, hne, hcolumns, horder, hoptions⟩ :=
        (isOptions_iff fun _ => mem_names_iff_column hg).mp selected
      refine ⟨⟨filter, columns, order, some g⟩,
        ⟨hfilter, fun _ h => Option.some.inj h ▸ hg, hne, hcolumns, horder⟩, ?_⟩
      exact .sections ((exactly_optional_present transformed).mpr exactly) narrowed shaped hwhere
        hoptions (transformed ▸ .some hwritten)

theorem isQuery_of_written {q : Query} (hq : q.Legal ∧ q.Typed kind ∧ ∀ k ∈ q.keys, k.dataset = id)
    (hwritten : q.Written value) : IsQuery id kind value := by
  obtain ⟨hfilter, hgrouping, hne, hcolumns, horder⟩ := fits_query_iff.mp hq
  obtain ⟨filter, columns, order, grouping⟩ := q
  obtain @⟨members, condition, options, exactly, narrowed, shaped, hwhere, hoptions, hgrouped⟩ :=
    hwritten
  have filtered := isWhere_iff.mpr ⟨filter, hwhere, hfilter⟩
  cases hfind : Keyed.find? members "TRANSFORMATIONS" with
  | none =>
      rw [hfind] at hgrouped
      cases hgrouped
      refine .plain ((exactly_optional_absent hfind).mp exactly) narrowed shaped filtered ?_
      exact (isOptions_iff fun _ => isKey_iff_column).mpr
        ⟨columns, order, hne, hcolumns, horder, hoptions⟩
  | some transformations =>
      rw [hfind] at hgrouped
      obtain @⟨g, _, hg⟩ := hgrouped
      have hfits := hgrouping g rfl
      refine .grouped ((exactly_optional_present hfind).mp exactly) narrowed shaped hfind filtered
        (isGrouping_iff.mpr ⟨g, hfits, hg, rfl, rfl⟩) ?_
      exact (isOptions_iff fun _ => mem_names_iff_column hfits).mpr
        ⟨columns, order, hne, hcolumns, horder, hoptions⟩

end Registrar.Grammar

namespace Registrar.Bound

theorem ofJson_succeeds_iff_isQuery (known : Known) (value : Json) :
    (∃ b, ofJson known value = .ok b) ↔
      ∃ id kind, Keyed.find? known id = some kind ∧ Grammar.IsQuery id kind value := by
  simp only [ofJson_eq_ok_iff]
  constructor
  · rintro ⟨b, ⟨hlegal, htyped, hid⟩, hwritten, hknown⟩
    exact ⟨b.dataset, b.kind, hknown, Grammar.isQuery_of_written ⟨hlegal, htyped, hid⟩ hwritten⟩
  · rintro ⟨id, kind, hknown, hquery⟩
    obtain ⟨q, ⟨hlegal, htyped, hid⟩, hwritten⟩ := Grammar.exists_written_of_isQuery hquery
    exact ⟨⟨id, kind, q⟩, ⟨hlegal, htyped, hid⟩, hwritten, hknown⟩

end Registrar.Bound
