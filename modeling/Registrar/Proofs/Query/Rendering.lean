import Registrar.Proofs.Json.WellFormed
import Registrar.Proofs.Keyed
import Registrar.Proofs.Query.Acceptance
import Registrar.Proofs.Query.Pattern

namespace Registrar

open Query

namespace Json

inductive Alike : Json → Json → Prop
  | same (v : Json) : Alike v v
  | number {v w : Json} {x y : Binary64} (hv : v.number? = some x) (hw : w.number? = some y)
      (h : x.equal y) : Alike v w
  | arr {vs ws : List Json} (h : List.Forall₂ Alike vs ws) : Alike (.arr vs) (.arr ws)
  | obj {ms ns : List (String × Json)} (names : ms.map Prod.fst = ns.map Prod.fst)
      (h : List.Forall₂ Alike (ms.map Prod.snd) (ns.map Prod.snd)) : Alike (.obj ms) (.obj ns)

theorem Alike.single (name : String) {v w : Json} (h : Alike v w) :
    Alike (.obj [(name, v)]) (.obj [(name, w)]) :=
  .obj rfl (.cons h .nil)

inductive Memberwise (R : String → Json → Json → Prop) : Json → Json → Prop
  | intro {ms ns : Keyed Json}
      (h : List.Forall₂ (fun m n => m.1 = n.1 ∧ R m.1 m.2 n.2) ms ns) :
      Memberwise R (.obj ms) (.obj ns)

end Json

inductive Order.Respelled : Json → Json → Prop
  | same (v : Json) : Respelled v v
  | direction {name other : String} (hname : name ∈ directionKeys) (hother : other ∈ directionKeys)
      (token keys : Json) :
      Respelled (.obj [(name, token), ("keys", keys)]) (.obj [(other, token), ("keys", keys)])

namespace Query

def OptionsRespelled : Json → Json → Prop :=
  Json.Memberwise fun name v w => if name = "ORDER" then Order.Respelled v w else v = w

def Respelled : Json → Json → Prop :=
  Json.Memberwise fun name v w =>
    if name = "WHERE" then v.Alike w
    else if name = "OPTIONS" then OptionsRespelled v w
    else v = w

end Query

inductive Filter.Same : Filter → Filter → Prop
  | not {f g : Filter} (h : Same f g) : Same (.not f) (.not g)
  | and {fs gs : List Filter} (h : List.Forall₂ Same fs gs) : Same (.and fs) (.and gs)
  | or {fs gs : List Filter} (h : List.Forall₂ Same fs gs) : Same (.or fs) (.or gs)
  | number (comparison : Comparison) (key : Key) {x y : Binary64} (h : x.equal y) :
      Same (.number comparison key x) (.number comparison key y)
  | text (key : Key) (pattern : Pattern) : Same (.text key pattern) (.text key pattern)

structure Query.Same (q q' : Query) : Prop where
  filter : Option.Rel Filter.Same q.filter q'.filter
  columns : q.columns = q'.columns
  order : q.order = q'.order
  grouping : q.grouping = q'.grouping

structure Bound.Same (b b' : Bound) : Prop where
  dataset : b.dataset = b'.dataset
  kind : b.kind = b'.kind
  query : b.query.Same b'.query

namespace Filter

theorem alike_of_same {f g : Filter} {v w : Json} (hv : Written f v) (hsame : f.Same g)
    (hw : Written g w) : v.Alike w := by
  revert g w
  refine @Written.rec (fun f v _ => ∀ {g w}, Filter.Same f g → Written g w → v.Alike w)
    (fun parts items _ => ∀ {others values}, List.Forall₂ Filter.Same parts others →
      ListWritten others values → List.Forall₂ Json.Alike items values)
    ?not ?and ?or ?number ?text ?nil ?cons f v hv
  case not =>
    intro inner payload _ ih g w hsame hw
    cases hsame with
    | not hinner =>
        cases hw with
        | not hbody => exact .single "NOT" (ih hinner hbody)
  case and =>
    intro parts items _ _ ih g w hsame hw
    cases hsame with
    | and hparts =>
        cases hw with
        | and _ hbody => exact .single "AND" (.arr (ih hparts hbody))
  case or =>
    intro parts items _ _ ih g w hsame hw
    cases hsame with
    | or hparts =>
        cases hw with
        | or _ hbody => exact .single "OR" (.arr (ih hparts hbody))
  case number =>
    intro comparison key literal x _ hx g w hsame hw
    cases hsame with
    | number _ _ hequal =>
        cases hw with
        | number _ _ hy => exact .single _ (.single _ (.number hx hy hequal))
  case text =>
    intro key raw pattern _ hraw g w hsame hw
    cases hsame
    cases hw with
    | text _ hother =>
        rw [← Pattern.text_of_parse? hraw, ← Pattern.text_of_parse? hother]
        exact .same _
  case nil =>
    intro others values hsame hw
    cases hsame
    cases hw
    exact .nil
  case cons =>
    intro f rest item items _ _ ihhead ihtail others values hsame hw
    cases hsame with
    | cons hhead htail =>
        cases hw with
        | cons hfirst hrest => exact .cons (ihhead hhead hfirst) (ihtail htail hrest)

end Filter

namespace Order

theorem Written.members_eq {direction : Direction} {keys : List String} {members : Keyed Json}
    (h : Written (.composite direction keys) (.obj members)) (hmembers : Keyed.Ascending members) :
    ∃ name ∈ directionKeys,
      members = [(name, .str direction.token), ("keys", .arr (keys.map .str))] := by
  cases h with
  | @composite _ name _ _ named exactly directed listed =>
      have hname : name = "dir" ∨ name = "direction" := by simpa [directionKeys] using named
      have hbelow : name < "keys" := by rcases hname with rfl | rfl <;> decide
      refine ⟨name, named, Keyed.eq_of_find? hmembers (List.pairwise_pair.mpr hbelow) ?_⟩
      intro other
      rw [Keyed.find?_cons, Keyed.find?_cons]
      split
      · next heq => rw [← heq, directed]
      · next hdirection =>
        split
        · next heq => rw [← heq, listed]
        · next hkeys =>
          exact exactly.find?_eq_none (by simp [Ne.symm hdirection, Ne.symm hkeys]) List.not_mem_nil

theorem respelled_of_written {o : Order} {v w : Json} (hv : Written o v) (hw : Written o w)
    (hvalue : v.isWellFormed) (hother : w.isWellFormed) : Respelled v w := by
  cases o with
  | single key =>
      cases hv
      cases hw
      exact .same _
  | composite direction keys =>
      obtain ⟨members, rfl⟩ : ∃ members, v = .obj members := by cases hv; exact ⟨_, rfl⟩
      obtain ⟨others, rfl⟩ : ∃ members, w = .obj members := by cases hw; exact ⟨_, rfl⟩
      obtain ⟨name, hname, rfl⟩ := hv.members_eq (Json.isWellFormed_obj_iff.mp hvalue).1
      obtain ⟨other, hname', rfl⟩ := hw.members_eq (Json.isWellFormed_obj_iff.mp hother).1
      exact .direction hname hname' _ _

end Order

theorem Grouping.eq_of_written {g : Grouping} {v w : Json} (hv : g.Written v) (hw : g.Written w)
    (hvalue : v.isWellFormed) (hother : w.isWellFormed) : v = w := by
  obtain ⟨hexactly, hgroup, happly⟩ := hv
  obtain ⟨hexactly', hgroup', happly'⟩ := hw
  refine congrArg Json.obj (Keyed.eq_of_find? (Json.isWellFormed_obj_iff.mp hvalue).1
    (Json.isWellFormed_obj_iff.mp hother).1 fun name => ?_)
  by_cases hname : name ∈ ["GROUP", "APPLY"]
  · simp only [List.mem_cons, List.not_mem_nil, or_false] at hname
    rcases hname with rfl | rfl
    · rw [hgroup, hgroup']
    · rw [happly, happly']
  · rw [hexactly.find?_eq_none hname List.not_mem_nil,
      hexactly'.find?_eq_none hname List.not_mem_nil]

theorem rel_of_common {α β : Type} {R : α → β → Prop} {S : β → β → Prop} {a : Option α}
    {x y : Option β} (hx : Option.Rel R a x) (hy : Option.Rel R a y)
    (h : ∀ a, ∀ v ∈ x, ∀ w ∈ y, R a v → R a w → S v w) : Option.Rel S x y := by
  cases hx with
  | none =>
      cases hy
      exact .none
  | some hv =>
      cases hy with
      | some hw => exact .some (h _ _ rfl _ rfl hv hw)

theorem Json.isWellFormed_of_find? {members : Keyed Json} (h : (Json.obj members).isWellFormed)
    {name : String} {v : Json} (hfind : Keyed.find? members name = some v) : v.isWellFormed :=
  (Json.isWellFormed_obj_iff.mp h).2 _ (Keyed.mem_of_find? hfind)

namespace Query

theorem whereAlike_of_same {f g : Option Filter} {v w : Json} (hv : WhereWritten f v)
    (hsame : Option.Rel Filter.Same f g) (hw : WhereWritten g w) : v.Alike w := by
  cases hsame with
  | none =>
      cases hv
      cases hw
      exact .same _
  | some hsame =>
      cases hv with
      | filter hv =>
          cases hw with
          | filter hw => exact Filter.alike_of_same hv hsame hw

theorem memberwise_of_find? {required optional : List String} {members others : Keyed Json}
    {R : String → Json → Json → Prop} (hexactly : Shape.Exactly required optional members)
    (hexactly' : Shape.Exactly required optional others)
    (hmembers : (Json.obj members).isWellFormed) (hothers : (Json.obj others).isWellFormed)
    (h : ∀ name, name ∈ required ∨ name ∈ optional →
      Option.Rel (R name) (Keyed.find? members name) (Keyed.find? others name)) :
    Json.Memberwise R (.obj members) (.obj others) := by
  refine .intro (Keyed.forall₂_of_find? (Json.isWellFormed_obj_iff.mp hmembers).1
    (Json.isWellFormed_obj_iff.mp hothers).1 fun name => ?_)
  by_cases hname : name ∈ required ∨ name ∈ optional
  · exact h name hname
  · obtain ⟨hrequired, hoptional⟩ := not_or.mp hname
    rw [hexactly.find?_eq_none hrequired hoptional, hexactly'.find?_eq_none hrequired hoptional]
    exact .none

theorem optionsRespelled_of_written {columns : List Column} {order : Option Order} {v w : Json}
    (hv : OptionsWritten columns order v) (hw : OptionsWritten columns order w)
    (hvalue : v.isWellFormed) (hother : w.isWellFormed) : OptionsRespelled v w := by
  obtain @⟨members, hexactly, hlisted, hordered⟩ := hv
  obtain @⟨others, hexactly', hlisted', hordered'⟩ := hw
  refine memberwise_of_find? hexactly hexactly' hvalue hother fun name hname => ?_
  simp only [List.mem_singleton] at hname
  rcases hname with rfl | rfl
  · rw [hlisted, hlisted']
    exact .some rfl
  · refine rel_of_common hordered hordered' fun o v hv w hw ho ho' => ?_
    exact Order.respelled_of_written ho ho' (Json.isWellFormed_of_find? hvalue hv)
      (Json.isWellFormed_of_find? hother hw)

theorem respelled_of_same {q q' : Query} {v w : Json} (hv : q.Written v) (hw : q'.Written w)
    (hsame : q.Same q') (hvalue : v.isWellFormed) (hother : w.isWellFormed) : Respelled v w := by
  obtain ⟨hfilter, hcolumns, horder, hgrouping⟩ := hsame
  obtain @⟨members, condition, options, hexactly, hwhere, hoptions, hfiltered, hselected, hgrouped⟩
    := hv
  obtain @⟨others, condition', options', hexactly', hwhere', hoptions', hfiltered', hselected',
    hgrouped'⟩ := hw
  refine memberwise_of_find? hexactly hexactly' hvalue hother fun name hname => ?_
  simp only [List.mem_cons, List.not_mem_nil, or_false] at hname
  rcases hname with (rfl | rfl) | rfl
  · rw [hwhere, hwhere']
    exact .some (whereAlike_of_same hfiltered hfilter hfiltered')
  · rw [hoptions, hoptions']
    rw [← hcolumns, ← horder] at hselected'
    exact .some (optionsRespelled_of_written hselected hselected'
      (Json.isWellFormed_of_find? hvalue hoptions) (Json.isWellFormed_of_find? hother hoptions'))
  · rw [← hgrouping] at hgrouped'
    refine rel_of_common hgrouped hgrouped' fun g v hv w hw hg hg' => ?_
    exact Grouping.eq_of_written hg hg' (Json.isWellFormed_of_find? hvalue hv)
      (Json.isWellFormed_of_find? hother hw)

end Query

namespace Filter

mutual

def toJson : Filter → Json
  | .not inner => .obj [("NOT", toJson inner)]
  | .and parts => .obj [("AND", .arr (listToJson parts))]
  | .or parts => .obj [("OR", .arr (listToJson parts))]
  | .number comparison key literal => .obj [(comparison.token, .obj [(key.text, .real literal)])]
  | .text key pattern => .obj [("IS", .obj [(key.text, .str pattern.text)])]

def listToJson : List Filter → List Json
  | [] => []
  | f :: rest => toJson f :: listToJson rest

end

end Filter

def Order.toJson : Order → Json
  | .single key => .str key
  | .composite direction keys =>
      .ofMembers [("dir", .str direction.token), ("keys", .arr (keys.map .str))]

def Grouping.toJson (g : Grouping) : Json :=
  .ofMembers [("GROUP", .arr (g.keys.map Key.toJson)), ("APPLY", .arr (g.rules.map Rule.toJson))]

namespace Query

def whereToJson : Option Filter → Json
  | some f => f.toJson
  | none => .obj []

def optionsToJson (columns : List Column) (order : Option Order) : Json :=
  .ofMembers (("COLUMNS", .arr (columns.map Column.toJson)) ::
    (order.map fun o => ("ORDER", o.toJson)).toList)

def toJson (q : Query) : Json :=
  .ofMembers (("WHERE", whereToJson q.filter) :: ("OPTIONS", optionsToJson q.columns q.order) ::
    (q.grouping.map fun g => ("TRANSFORMATIONS", g.toJson)).toList)

end Query

theorem Json.isWellFormed_single_iff {name : String} {v : Json} :
    (Json.obj [(name, v)]).isWellFormed ↔ v.isWellFormed := by
  rw [isWellFormed_obj_iff, List.forall_mem_singleton]
  exact and_iff_right (List.pairwise_singleton _ _)

structure Filter.Rendered (f : Filter) : Prop where
  same : f.Same f
  written : f.Written f.toJson
  wellFormed : f.toJson.isWellFormed

namespace Filter

theorem rendered_of_written {f : Filter} {v : Json} (hv : Written f v) (hvalue : v.isWellFormed) :
    f.Rendered := by
  revert hvalue
  refine @Written.rec (fun f v _ => v.isWellFormed → f.Rendered)
    (fun parts items _ => (∀ v ∈ items, v.isWellFormed) → List.Forall₂ Filter.Same parts parts ∧
      ListWritten parts (listToJson parts) ∧ ∀ v ∈ listToJson parts, v.isWellFormed)
    ?not ?and ?or ?number ?text ?nil ?cons f v hv
  case not =>
    intro inner payload _ ih hvalue
    obtain ⟨hsame, hwritten, hformed⟩ := ih (Json.isWellFormed_single_iff.mp hvalue)
    exact ⟨.not hsame, .not hwritten, Json.isWellFormed_single_iff.mpr hformed⟩
  case and =>
    intro parts items hne _ ih hvalue
    obtain ⟨hsame, hwritten, hformed⟩ :=
      ih (Json.isWellFormed_arr_iff.mp (Json.isWellFormed_single_iff.mp hvalue))
    exact ⟨.and hsame, .and hne hwritten,
      Json.isWellFormed_single_iff.mpr (Json.isWellFormed_arr_iff.mpr hformed)⟩
  case or =>
    intro parts items hne _ ih hvalue
    obtain ⟨hsame, hwritten, hformed⟩ :=
      ih (Json.isWellFormed_arr_iff.mp (Json.isWellFormed_single_iff.mp hvalue))
    exact ⟨.or hsame, .or hne hwritten,
      Json.isWellFormed_single_iff.mpr (Json.isWellFormed_arr_iff.mpr hformed)⟩
  case number =>
    intro comparison key literal x hkey hx hvalue
    have hliteral := Json.isWellFormed_single_iff.mp (Json.isWellFormed_single_iff.mp hvalue)
    have hfinite := Json.isFinite_of_number? hliteral hx
    have hself := Binary64.equal_self (Binary64.isNan_of_isFinite hfinite)
    refine ⟨.number _ _ hself, .number comparison hkey rfl, ?_⟩
    exact Json.isWellFormed_single_iff.mpr (Json.isWellFormed_single_iff.mpr hfinite)
  case text =>
    intro key raw pattern hkey hraw _
    refine ⟨.text _ _, .text hkey ((Pattern.text_of_parse? hraw).symm ▸ hraw), ?_⟩
    exact Json.isWellFormed_single_iff.mpr (Json.isWellFormed_single_iff.mpr rfl)
  case nil => exact fun _ => ⟨.nil, .nil, nofun⟩
  case cons =>
    intro f rest item items _ _ ihhead ihtail hvalues
    obtain ⟨hhead, htail⟩ := List.forall_mem_cons.mp hvalues
    obtain ⟨hsame, hwritten, hformed⟩ := ihhead hhead
    obtain ⟨hsames, hwrittens, hformeds⟩ := ihtail htail
    exact ⟨.cons hsame hsames, .cons hwritten hwrittens,
      List.forall_mem_cons.mpr ⟨hformed, hformeds⟩⟩

end Filter

theorem Query.Shape.exactly_ofList_iff {required optional : List String}
    {entries : List (String × Json)} :
    Exactly required optional (Keyed.ofList entries) ↔
      (∀ key ∈ required, key ∈ entries.map Prod.fst) ∧
        ∀ key ∈ entries.map Prod.fst, key ∈ required ∨ key ∈ optional := by
  simp only [Exactly, Keyed.mem_keys_ofList]

theorem Json.isWellFormed_arr_map {α : Type} {f : α → Json} {as : List α}
    (h : ∀ a, (f a).isWellFormed) : (Json.arr (as.map f)).isWellFormed :=
  Json.isWellFormed_arr_iff.mpr (List.forall_mem_map.mpr fun a _ => h a)

theorem Order.written_toJson (o : Order) : Written o o.toJson := by
  cases o with
  | single key => exact .single key
  | composite direction keys =>
      refine @Written.composite _ "dir" direction keys List.mem_cons_self
        (Shape.exactly_ofList_iff.mpr ?_) ?_ ?_
      · simp
      · simp [Keyed.find?_ofList, List.lookup_cons]
      · simp [Keyed.find?_ofList]

theorem Order.isWellFormed_toJson (o : Order) : o.toJson.isWellFormed := by
  cases o with
  | single => rfl
  | composite =>
      refine Json.isWellFormed_ofMembers ?_
      rw [List.forall_mem_cons, List.forall_mem_singleton]
      exact ⟨rfl, Json.isWellFormed_arr_map fun _ => rfl⟩

theorem Grouping.written_toJson (g : Grouping) : g.Written g.toJson := by
  refine .sections (Shape.exactly_ofList_iff.mpr ?_) ?_ ?_
  · simp
  · simp [Keyed.find?_ofList, List.lookup_cons]
  · simp [Keyed.find?_ofList]

theorem Grouping.isWellFormed_toJson (g : Grouping) : g.toJson.isWellFormed := by
  refine Json.isWellFormed_ofMembers ?_
  rw [List.forall_mem_cons, List.forall_mem_singleton]
  refine ⟨Json.isWellFormed_arr_map fun _ => rfl, Json.isWellFormed_arr_map fun r => ?_⟩
  exact Json.isWellFormed_single_iff.mpr (Json.isWellFormed_single_iff.mpr rfl)

theorem rel_map {α β : Type} {R : α → β → Prop} {f : α → β} (h : ∀ a, R a (f a)) (a : Option α) :
    Option.Rel R a (a.map f) := by
  cases a with
  | none => exact .none
  | some a => exact .some (h a)

namespace Query

theorem optionsWritten_optionsToJson (columns : List Column) (order : Option Order) :
    OptionsWritten columns order (optionsToJson columns order) := by
  refine .sections (Shape.exactly_ofList_iff.mpr ?_) ?_ ?_
  · cases order <;> simp
  · cases order <;> simp [Keyed.find?_ofList, List.lookup_cons]
  · have hfind : Keyed.find? (Keyed.ofList (("COLUMNS", .arr (columns.map Column.toJson)) ::
        (order.map fun o => ("ORDER", o.toJson)).toList)) "ORDER" = order.map Order.toJson := by
      cases order <;> simp [Keyed.find?_ofList, List.lookup_cons]
    rw [hfind]
    exact rel_map Order.written_toJson order

theorem isWellFormed_optionsToJson (columns : List Column) (order : Option Order) :
    (optionsToJson columns order).isWellFormed := by
  refine Json.isWellFormed_ofMembers (List.forall_mem_cons.mpr ⟨?_, ?_⟩)
  · exact Json.isWellFormed_arr_map fun _ => rfl
  · cases order with
    | none => exact nofun
    | some o => exact List.forall_mem_singleton.mpr o.isWellFormed_toJson

structure Rendered (q : Query) : Prop where
  same : q.Same q
  written : q.Written q.toJson
  wellFormed : q.toJson.isWellFormed

theorem rendered_where {filter : Option Filter} {v : Json} (hv : WhereWritten filter v)
    (hvalue : v.isWellFormed) : Option.Rel Filter.Same filter filter ∧
      WhereWritten filter (whereToJson filter) ∧ (whereToJson filter).isWellFormed := by
  cases hv with
  | everything => exact ⟨.none, .everything, rfl⟩
  | filter hbody =>
      obtain ⟨hsame, hwritten, hformed⟩ := Filter.rendered_of_written hbody hvalue
      exact ⟨.some hsame, .filter hwritten, hformed⟩

theorem rendered_of_written {q : Query} {v : Json} (hv : q.Written v) (hvalue : v.isWellFormed) :
    q.Rendered := by
  obtain @⟨members, condition, options, _, hwhere, _, hfiltered, _, _⟩ := hv
  obtain ⟨hsame, hwritten, hformed⟩ :=
    rendered_where hfiltered (Json.isWellFormed_of_find? hvalue hwhere)
  obtain ⟨filter, columns, order, grouping⟩ := q
  constructor
  case same => exact ⟨hsame, rfl, rfl, rfl⟩
  case written =>
    refine @Written.sections _ _ (whereToJson filter) (optionsToJson columns order)
      (Shape.exactly_ofList_iff.mpr ?_) ?_ ?_ hwritten
      (optionsWritten_optionsToJson columns order) ?_
    · cases grouping <;> simp
    · cases grouping <;> simp [Keyed.find?_ofList, List.lookup_cons]
    · cases grouping <;> simp [Keyed.find?_ofList, List.lookup_cons]
    · have hfind : Keyed.find? (Keyed.ofList (("WHERE", whereToJson filter) ::
          ("OPTIONS", optionsToJson columns order) ::
          (grouping.map fun g => ("TRANSFORMATIONS", g.toJson)).toList)) "TRANSFORMATIONS" =
            grouping.map Grouping.toJson := by
        cases grouping <;> simp [Keyed.find?_ofList, List.lookup_cons]
      rw [hfind]
      exact rel_map Grouping.written_toJson grouping
  case wellFormed =>
    refine Json.isWellFormed_ofMembers (List.forall_mem_cons.mpr ⟨hformed, ?_⟩)
    refine List.forall_mem_cons.mpr ⟨isWellFormed_optionsToJson columns order, ?_⟩
    cases grouping with
    | none => exact List.forall_mem_nil _
    | some g => exact List.forall_mem_singleton.mpr g.isWellFormed_toJson

end Query

namespace Bound

def toJson (b : Bound) : Json := b.query.toJson

theorem respelled_of_ofJson {known : Known} {value other : Json} {b b' : Bound}
    (hvalue : value.isWellFormed) (hother : other.isWellFormed) (h : ofJson known value = .ok b)
    (h' : ofJson known other = .ok b') (hsame : b.Same b') :
    Respelled value other ∧ Respelled value b.toJson ∧ ofJson known b.toJson = .ok b ∧
      b.toJson.isWellFormed := by
  obtain ⟨haccepted, hwritten, hknown⟩ := (ofJson_eq_ok_iff known value b).mp h
  obtain ⟨_, hwritten', _⟩ := (ofJson_eq_ok_iff known other b').mp h'
  obtain ⟨hself, hagain, hformed⟩ := rendered_of_written hwritten hvalue
  refine ⟨respelled_of_same hwritten hwritten' hsame.query hvalue hother, ?_, ?_, hformed⟩
  · exact respelled_of_same hwritten hagain hself hvalue hformed
  · exact (ofJson_eq_ok_iff known _ b).mpr ⟨haccepted, hagain, hknown⟩

end Bound

namespace Sample

def lowest : Json :=
  .obj
    [("OPTIONS",
        .obj
          [("COLUMNS", .arr [.str "marks_dept", .str "marks_avg"]),
            ("ORDER", .obj [("dir", .str "DOWN"), ("keys", .arr [.str "marks_avg"])])]),
      ("WHERE",
        .obj
          [("AND",
            .arr
              [.obj [("LT", .obj [("marks_avg", .int 50)])],
                .obj [("IS", .obj [("marks_dept", .str "cp*")])]])])]

def lowestRespelled : Json :=
  .obj
    [("OPTIONS",
        .obj
          [("COLUMNS", .arr [.str "marks_dept", .str "marks_avg"]),
            ("ORDER", .obj [("direction", .str "DOWN"), ("keys", .arr [.str "marks_avg"])])]),
      ("WHERE",
        .obj
          [("AND",
            .arr
              [.obj [("LT", .obj [("marks_avg", .real (.ofInt 50))])],
                .obj [("IS", .obj [("marks_dept", .str "cp*")])]])])]

def low : Bound where
  dataset := "marks"
  kind := .courses
  query :=
    { filter := some (.and [.number .less ⟨"marks", "avg"⟩ (.ofInt 50),
        .text ⟨"marks", "dept"⟩ (.startsWith "cp")])
      columns := [.key ⟨"marks", "dept"⟩, .key ⟨"marks", "avg"⟩]
      order := some (.composite .down ["marks_avg"])
      grouping := none }

end Sample

theorem respelled_lowest :
    Sample.lowest ≠ Sample.lowestRespelled ∧
      Bound.ofJson [("marks", .courses)] Sample.lowest = .ok Sample.low ∧
      Bound.ofJson [("marks", .courses)] Sample.lowestRespelled = .ok Sample.low ∧
      Respelled Sample.lowest Sample.lowestRespelled := by
  have hlowest : Bound.ofJson [("marks", .courses)] Sample.lowest = .ok Sample.low := rfl
  have hrespelled : Bound.ofJson [("marks", .courses)] Sample.lowestRespelled =
      .ok Sample.low := rfl
  have hfifty : (Binary64.ofInt 50).equal (.ofInt 50) := by decide +kernel
  have hfilter : Filter.Same _ _ :=
    .and (.cons (.number .less ⟨"marks", "avg"⟩ hfifty)
      (.cons (.text ⟨"marks", "dept"⟩ (.startsWith "cp")) .nil))
  have hsame : Sample.low.Same Sample.low := ⟨rfl, rfl, .some hfilter, rfl, rfl, rfl⟩
  refine ⟨?_, hlowest, hrespelled, ?_⟩
  · simp [Sample.lowest, Sample.lowestRespelled]
  · exact (Bound.respelled_of_ofJson (by decide +kernel) (by decide +kernel) hlowest hrespelled
      hsame).1

end Registrar
