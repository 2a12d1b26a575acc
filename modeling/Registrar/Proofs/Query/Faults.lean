import Registrar.Proofs.Catalog.Reading
import Registrar.Proofs.Failure
import Registrar.Proofs.Query.Pattern
import Registrar.Proofs.Query.Reading

namespace Registrar

open Except Query

namespace Filter

inductive Compares (token raw : String) (literal : Json) : Json → Prop
  | here (h : token ∈ ["GT", "LT", "EQ", "IS"]) :
      Compares token raw literal (.obj [(token, .obj [(raw, literal)])])
  | not {inner : Json} (h : Compares token raw literal inner) :
      Compares token raw literal (.obj [("NOT", inner)])
  | and {items : List Json} {item : Json} (hitem : item ∈ items)
      (h : Compares token raw literal item) :
      Compares token raw literal (.obj [("AND", .arr items)])
  | or {items : List Json} {item : Json} (hitem : item ∈ items)
      (h : Compares token raw literal item) :
      Compares token raw literal (.obj [("OR", .arr items)])

theorem Compares.number (c : Comparison) (raw : String) (literal : Json) :
    Compares c.token raw literal (.obj [(c.token, .obj [(raw, literal)])]) :=
  .here (by cases c <;> decide)

theorem Compares.text (raw : String) (literal : Json) :
    Compares "IS" raw literal (.obj [("IS", .obj [(raw, literal)])]) := .here (by decide)

end Filter

namespace Json

def list? (value : Json) (part name : String) : Option (List Json) :=
  ((value.field? part).bind (·.field? name)).bind array?

inductive HasKey (value : Json) (raw : String) : Prop
  | compared {condition literal : Json} {token : String}
      (hwhere : value.field? "WHERE" = some condition)
      (h : Filter.Compares token raw literal condition)
  | column {items : List Json} (hitems : value.list? "OPTIONS" "COLUMNS" = some items)
      (hitem : .str raw ∈ items)
      (h : value.field? "TRANSFORMATIONS" = none ∨ Key.separator ∈ raw.toList)
  | grouped {items : List Json} (hitems : value.list? "TRANSFORMATIONS" "GROUP" = some items)
      (hitem : .str raw ∈ items)
  | aggregated {items : List Json} {name : String} {aggregate : Aggregate}
      (hitems : value.list? "TRANSFORMATIONS" "APPLY" = some items)
      (hitem : .obj [(name, .obj [(aggregate.token, .str raw)])] ∈ items)

def HasPattern (value : Json) (pattern : String) : Prop :=
  ∃ condition raw, value.field? "WHERE" = some condition ∧
    Filter.Compares "IS" raw (.str pattern) condition

def ruleName? : Json → Option String
  | .obj [(name, _)] => some name
  | _ => none

def declared (value : Json) : List String :=
  ((value.list? "TRANSFORMATIONS" "APPLY").getD []).filterMap ruleName?

end Json

def Rule.IsBadName (names : List String) (name : String) : Prop :=
  name ∈ names ∧ (name = "" ∨ Key.separator ∈ name.toList ∨ 2 ≤ names.count name)

namespace Rejection

inductive Founded (keys patterns names : String → Prop) : Rejection → Prop
  | shape {r : Rejection} (h : r.code = .malformed) : Founded keys patterns names r
  | key {raw : String} (hraw : keys raw) (h : ∀ k : Key, k.Proper → raw ≠ k.text) :
      Founded keys patterns names (.invalidKey raw)
  | pattern {raw : String} (hraw : patterns raw) (h : ¬Pattern.Legal raw) :
      Founded keys patterns names (.invalidWildcard raw)
  | name {r : Rejection} (name : String) (hname : names name)
      (hcode : r.code = .duplicateApplyKey) (hkey : r.key? = some name) :
      Founded keys patterns names r

theorem Founded.mono {keys keys' patterns patterns' names names' : String → Prop} {r : Rejection}
    (h : r.Founded keys patterns names) (hkeys : ∀ raw, keys raw → keys' raw)
    (hpatterns : ∀ raw, patterns raw → patterns' raw) (hnames : ∀ name, names name → names' name) :
    r.Founded keys' patterns' names' := by
  cases h with
  | shape h => exact .shape h
  | key hraw h => exact .key (hkeys _ hraw) h
  | pattern hraw h => exact .pattern (hpatterns _ hraw) h
  | name name hname hcode hkey => exact .name name (hnames _ hname) hcode hkey

end Rejection

namespace Query.Shape

variable {part : String} {value : Json} {keys patterns names : String → Prop}

theorem raises_object : (object part value).Raises (Rejection.Founded keys patterns names) := by
  unfold object
  split
  · exact raises_ok
  · exact raises_error (.shape rfl)

theorem raises_array : (array part value).Raises (Rejection.Founded keys patterns names) := by
  unfold array
  split
  · exact raises_ok
  · exact raises_error (.shape rfl)

theorem raises_nonEmptyArray :
    (nonEmptyArray part value).Raises (Rejection.Founded keys patterns names) := by
  unfold nonEmptyArray
  split
  · exact raises_error (.shape rfl)
  · exact raises_array

theorem raises_string : (string part value).Raises (Rejection.Founded keys patterns names) := by
  unfold string
  split
  · exact raises_ok
  · exact raises_error (.shape rfl)

theorem raises_single : (single part value).Raises (Rejection.Founded keys patterns names) := by
  unfold single
  split
  · exact raises_ok
  · exact raises_error (.shape rfl)
  · next r h =>
    exact raises_error (raises_object r h)

theorem raises_exactKeys {required optional : List String} {members : Keyed Json} :
    (exactKeys part required optional members).Raises (Rejection.Founded keys patterns names) := by
  unfold exactKeys
  split
  · exact raises_error (.shape rfl)
  · split
    · exact raises_error (.shape rfl)
    · exact raises_ok

theorem raises_member {members : Keyed Json} {name : String} :
    (member part members name).Raises (Rejection.Founded keys patterns names) := by
  unfold member
  split
  · exact raises_ok
  · exact raises_error (.shape rfl)

theorem raises_key {raw : String} (h : keys raw) :
    (key raw).Raises (Rejection.Founded keys patterns names) := by
  unfold key
  split
  · exact raises_ok
  · next hnone =>
    refine raises_error (.key h fun k hk heq => ?_)
    cases hnone.symm.trans (Key.parse?_eq_some_iff.mpr ⟨hk, heq⟩)

end Query.Shape

namespace Filter

def Fault (value : Json) : Rejection → Prop :=
  Rejection.Founded (fun raw => ∃ token literal, Compares token raw literal value)
    (fun pattern => ∃ raw, Compares "IS" raw (.str pattern) value) fun _ => False

theorem Fault.within {value outer : Json} {r : Rejection} (h : Fault value r)
    (hwithin : ∀ token raw literal, Compares token raw literal value →
      Compares token raw literal outer) : Fault outer r :=
  h.mono (fun _ ⟨token, literal, hraw⟩ => ⟨token, literal, hwithin _ _ _ hraw⟩)
    (fun _ ⟨raw, hpattern⟩ => ⟨raw, hwithin _ _ _ hpattern⟩) fun _ => id

theorem raises_readNumber (c : Comparison) (payload : Json) :
    (readNumber c payload).Raises (Fault (.obj [(c.token, payload)])) := by
  refine Shape.raises_single.bind fun ⟨raw, literal⟩ hpayload => ?_
  cases Shape.single_eq_ok_iff.mp hpayload
  refine (Shape.raises_key ⟨c.token, literal, .number c raw literal⟩).bind fun key _ => ?_
  split
  · exact raises_pure
  · exact raises_throw (.shape rfl)

theorem raises_readText (payload : Json) :
    (readText payload).Raises (Fault (.obj [("IS", payload)])) := by
  refine Shape.raises_single.bind fun ⟨raw, literal⟩ hpayload => ?_
  cases Shape.single_eq_ok_iff.mp hpayload
  refine (Shape.raises_key ⟨"IS", literal, .text raw literal⟩).bind fun key _ => ?_
  refine Shape.raises_string.bind fun text htext => ?_
  cases Shape.string_eq_ok_iff.mp htext
  split
  · exact raises_pure
  · next hnone =>
    refine raises_throw (.pattern ⟨raw, .text raw _⟩ fun hlegal => ?_)
    rw [← Pattern.parse?_isSome_iff, hnone] at hlegal
    cases hlegal

theorem raises_ofJson (value : Json) : (ofJson value).Raises (Fault value) := by
  refine ofJson.induct (fun value => (ofJson value).Raises (Fault value))
    (fun items => (ofItems items).Raises fun r => ∃ item ∈ items, Fault item r)
    ?noneOfAll ?all ?notAll ?noneOfAny ?any ?notAny ?notObject ?not ?text ?number ?unknown
    ?several ?other ?nil ?cons value
  case all =>
    intro item items ih
    rw [ofJson_and_cons]
    refine (ih.mono ?_).map _
    rintro r ⟨item, hitem, h⟩
    exact h.within fun _ _ _ => .and hitem
  case any =>
    intro item items ih
    rw [ofJson_or_cons]
    refine (ih.mono ?_).map _
    rintro r ⟨item, hitem, h⟩
    exact h.within fun _ _ _ => .or hitem
  case not =>
    intro payload members hpayload ih
    simp only [ofJson, hpayload]
    exact (ih.mono fun r h => h.within fun _ _ _ => .not).bind fun _ _ => raises_pure
  case text =>
    intro payload
    exact raises_readText payload
  case number =>
    intro tag payload c htag _ _ _ _
    cases Comparison.ofToken?_eq_some_iff.mp htag
    rw [ofJson_comparison]
    exact raises_readNumber c payload
  case nil => exact raises_pure
  case cons =>
    intro item items ihitem ihitems
    rw [ofItems]
    refine (ihitem.mono fun r h => ⟨item, List.mem_cons_self, h⟩).bind fun _ _ => ?_
    refine (ihitems.mono ?_).bind fun _ _ => raises_pure
    rintro r ⟨other, hother, h⟩
    exact ⟨other, List.mem_cons_of_mem _ hother, h⟩
  case noneOfAll | noneOfAny => exact raises_throw (.shape rfl)
  case notAll | notAny =>
    intro payload hnil hcons
    cases payload with
    | arr items =>
        cases items with
        | nil => exact (hnil rfl).elim
        | cons item items => exact (hcons item items rfl).elim
    | _ => exact raises_throw (.shape rfl)
  case notObject =>
    intro payload hpayload
    simp only [ofJson, hpayload]
    exact raises_throw (.shape rfl)
  case unknown =>
    intro tag payload htag hand hor hnot his
    rw [ofJson.eq_def]
    simp only [htag]
    exact raises_throw (.shape rfl)
  case several =>
    intro members hmany
    rw [ofJson]
    · exact raises_throw (.shape rfl)
    · exact hmany
  case other =>
    intro value hone hmany
    rw [ofJson]
    · exact raises_throw (.shape rfl)
    · exact hone
    · exact hmany

end Filter

namespace Rule

variable {earlier : List String} {items : List Json}

def Fault (earlier : List String) (items : List Json) : Rejection → Prop :=
  Rejection.Founded
    (fun raw => ∃ name, ∃ a : Aggregate, .obj [(name, .obj [(a.token, .str raw)])] ∈ items)
    (fun _ => False) fun name => name ∈ items.filterMap Json.ruleName? ∧
      (name = "" ∨ Key.separator ∈ name.toList ∨
        2 ≤ (earlier ++ items.filterMap Json.ruleName?).count name)

theorem raises_checkName {name : String} {keys patterns names : String → Prop}
    (h : name = "" ∨ Key.separator ∈ name.toList → names name) :
    (checkName name).Raises (Rejection.Founded keys patterns names) := by
  unfold checkName
  split
  · next hempty => exact raises_error (.name name (h (.inl hempty)) rfl (congrArg some hempty.symm))
  · split
    · next hseparator =>
      exact raises_error (.name name (h (.inr (by simpa using hseparator))) rfl rfl)
    · exact raises_ok

theorem raises_ofJson (item : Json) (items : List Json) :
    (ofJson item).Raises (Fault earlier (item :: items)) := by
  refine Shape.raises_single.bind fun ⟨name, body⟩ hitem => ?_
  cases Shape.single_eq_ok_iff.mp hitem
  refine (raises_checkName fun hname => ?_).bind fun _ _ => ?_
  · exact ⟨List.mem_cons_self, hname.imp_right .inl⟩
  refine Shape.raises_single.bind fun ⟨token, target⟩ hbody => ?_
  cases Shape.single_eq_ok_iff.mp hbody
  dsimp only
  split
  · exact raises_throw (.shape rfl)
  · next a ha =>
    cases Aggregate.ofToken?_eq_some_iff.mp ha
    refine Shape.raises_string.bind fun raw htarget => ?_
    cases Shape.string_eq_ok_iff.mp htarget
    exact (Shape.raises_key ⟨name, a, List.mem_cons_self⟩).bind fun _ _ => raises_pure

theorem raises_ofItems : (ofItems earlier items).Raises (Fault earlier items) := by
  induction items generalizing earlier with
  | nil => exact raises_pure
  | cons item items ih =>
      rw [ofItems]
      refine (raises_ofJson item items).bind fun rule hrule => ?_
      obtain ⟨_, rfl⟩ := ofJson_eq_ok_iff.mp hrule
      have hnames : (rule.toJson :: items).filterMap Json.ruleName? =
          rule.name :: items.filterMap Json.ruleName? := rfl
      split
      · next hrepeated =>
        refine raises_throw (.name rule.name ⟨?_, .inr (.inr ?_)⟩ rfl rfl)
        · exact List.mem_cons_self
        · have hbefore : 0 < earlier.count rule.name :=
            List.count_pos_iff.mpr (by simpa using hrepeated)
          rw [hnames, List.count_append, List.count_cons_self]
          omega
      · refine (ih.mono fun r hr => ?_).bind fun _ _ => raises_pure
        refine hr.mono ?_ (fun _ => id) ?_
        · rintro raw ⟨name, a, hmem⟩
          exact ⟨name, a, List.mem_cons_of_mem _ hmem⟩
        · rintro name ⟨hmem, hbad⟩
          rw [hnames]
          refine ⟨List.mem_cons_of_mem _ hmem, hbad.imp_right (.imp_right fun hcount => ?_)⟩
          refine hcount.trans_eq (List.Perm.count_eq ?_ name)
          exact List.perm_middle.symm

end Rule

namespace Query

def Fault (value : Json) : Rejection → Prop :=
  Rejection.Founded value.HasKey value.HasPattern (Rule.IsBadName value.declared)

end Query

theorem Json.list?_eq_some {value : Json} {part name : String} {members : Keyed Json}
    {items : List Json} (hpart : value.field? part = some (.obj members))
    (hname : Keyed.find? members name = some (.arr items)) :
    value.list? part name = some items := by
  rw [list?, hpart, Option.bind_some, field?]
  change (Keyed.find? members name).bind array? = _
  rw [hname]
  rfl

namespace Grouping

theorem raises_ofJson {value transformations : Json}
    (h : value.field? "TRANSFORMATIONS" = some transformations) :
    (ofJson transformations).Raises (Query.Fault value) := by
  refine Shape.raises_object.bind fun members hmembers => ?_
  cases Shape.object_eq_ok_iff.mp hmembers
  refine Shape.raises_exactKeys.bind fun _ _ => Shape.raises_member.bind fun group hgroup => ?_
  refine Shape.raises_nonEmptyArray.bind fun items hitems => ?_
  obtain ⟨rfl, _⟩ := Shape.nonEmptyArray_eq_ok_iff.mp hitems
  have hgrouped := Json.list?_eq_some h (Shape.member_eq_ok_iff.mp hgroup)
  refine (raises_mapM fun item hitem => ?_).bind fun _ _ => ?_
  · refine Shape.raises_string.bind fun raw hraw => ?_
    cases Shape.string_eq_ok_iff.mp hraw
    exact Shape.raises_key (.grouped hgrouped hitem)
  refine Shape.raises_member.bind fun apply happly => Shape.raises_array.bind fun rules hrules => ?_
  cases Shape.array_eq_ok_iff.mp hrules
  have happlied := Json.list?_eq_some h (Shape.member_eq_ok_iff.mp happly)
  refine (Rule.raises_ofItems.mono fun r hr => ?_).bind fun _ _ => raises_pure
  refine hr.mono ?_ (fun _ => False.elim) ?_
  · rintro raw ⟨name, a, hitem⟩
    exact .aggregated happlied hitem
  · rintro name ⟨hname, hbad⟩
    rw [Rule.IsBadName, Json.declared, happlied]
    exact ⟨hname, hbad⟩

end Grouping

theorem Column.raises_ofName {grouping : Option Grouping} {name : String}
    {keys patterns names : String → Prop}
    (h : grouping = none ∨ Key.separator ∈ name.toList → keys name) :
    (ofName grouping name).Raises (Rejection.Founded keys patterns names) := by
  cases grouping with
  | none => exact (Shape.raises_key (h (.inl rfl))).bind fun _ _ => raises_pure
  | some g =>
      rw [ofName]
      split
      · next hseparator =>
        refine (Shape.raises_key (h (.inr (by simpa using hseparator)))).bind fun _ _ => ?_
        split
        · exact raises_pure
        · exact raises_throw (.shape rfl)
      · split
        · exact raises_pure
        · exact raises_throw (.shape rfl)

namespace Order

variable {columns : List String} {keys patterns names : String → Prop}

theorem raises_checkKey {key : String} :
    (checkKey columns key).Raises (Rejection.Founded keys patterns names) := by
  unfold checkKey
  split
  · exact raises_ok
  · exact raises_error (.shape rfl)

theorem raises_readComposite {members : Keyed Json} :
    (readComposite columns members).Raises (Rejection.Founded keys patterns names) := by
  unfold readComposite
  split
  · exact raises_throw (.shape rfl)
  · refine Shape.raises_exactKeys.bind fun _ _ => Shape.raises_member.bind fun _ _ => ?_
    refine Shape.raises_string.bind fun token _ => ?_
    split
    · exact raises_throw (.shape rfl)
    · refine Shape.raises_member.bind fun _ _ => Shape.raises_nonEmptyArray.bind fun _ _ => ?_
      refine (raises_mapM fun item _ => ?_).bind fun _ _ => raises_pure
      exact Shape.raises_string.bind fun _ _ => raises_checkKey.bind fun _ _ => raises_pure

theorem raises_ofJson (value : Json) :
    (ofJson columns value).Raises (Rejection.Founded keys patterns names) := by
  unfold ofJson
  split
  · exact raises_checkKey.bind fun _ _ => raises_pure
  · exact raises_readComposite
  · exact raises_throw (.shape rfl)

end Order

namespace Query

theorem raises_readWhere {value condition : Json} (h : value.field? "WHERE" = some condition) :
    (readWhere condition).Raises (Fault value) := by
  refine Shape.raises_object.bind fun _ _ => ?_
  split
  · exact raises_pure
  · refine ((Filter.raises_ofJson condition).mono fun r hr => ?_).bind fun _ _ => raises_pure
    refine hr.mono ?_ ?_ fun _ => False.elim
    · rintro raw ⟨token, literal, hcompares⟩
      exact .compared h hcompares
    · rintro pattern ⟨raw, hcompares⟩
      exact ⟨condition, raw, h, hcompares⟩

theorem raises_readOptions {value options : Json} {grouping : Option Grouping}
    (h : value.field? "OPTIONS" = some options)
    (hgrouping : grouping = none → value.field? "TRANSFORMATIONS" = none) :
    (readOptions grouping options).Raises (Fault value) := by
  refine Shape.raises_object.bind fun members hmembers => ?_
  cases Shape.object_eq_ok_iff.mp hmembers
  refine Shape.raises_exactKeys.bind fun _ _ => Shape.raises_member.bind fun listed hlisted => ?_
  refine Shape.raises_nonEmptyArray.bind fun items hitems => ?_
  obtain ⟨rfl, _⟩ := Shape.nonEmptyArray_eq_ok_iff.mp hitems
  have hcolumns := Json.list?_eq_some h (Shape.member_eq_ok_iff.mp hlisted)
  refine (raises_mapM fun item hitem => ?_).bind fun columns _ => ?_
  · refine Shape.raises_string.bind fun name hname => ?_
    cases Shape.string_eq_ok_iff.mp hname
    exact Column.raises_ofName fun hkey => .column hcolumns hitem (hkey.imp_left hgrouping)
  refine Raises.bind ?_ fun _ _ => raises_pure
  unfold readOrder
  split
  · exact (Order.raises_ofJson _).bind fun _ _ => raises_pure
  · exact raises_pure

theorem raises_ofJson (value : Json) : (ofJson value).Raises (Fault value) := by
  refine Shape.raises_object.bind fun sections hsections => ?_
  cases Shape.object_eq_ok_iff.mp hsections
  have hfield (name : String) : (Json.obj sections).field? name = Keyed.find? sections name := rfl
  refine Shape.raises_exactKeys.bind fun _ _ => Raises.bind ?grouping fun grouping hgrouping => ?_
  case grouping =>
    unfold readGrouping
    split
    · next transformations hfind =>
      exact (Grouping.raises_ofJson ((hfield _).trans hfind)).bind fun _ _ => raises_pure
    · exact raises_pure
  refine Shape.raises_member.bind fun condition hwhere => ?_
  refine (raises_readWhere ((hfield _).trans (Shape.member_eq_ok_iff.mp hwhere))).bind fun _ _ => ?_
  refine Shape.raises_member.bind fun options hoptions => ?_
  have hshaped := (hfield _).trans (Shape.member_eq_ok_iff.mp hoptions)
  refine (raises_readOptions hshaped ?_).bind fun _ _ => raises_pure
  rintro rfl
  obtain ⟨_, hrel⟩ := readGrouping_eq_ok_iff.mp hgrouping
  rw [hfield]
  generalize Keyed.find? sections "TRANSFORMATIONS" = found at hrel ⊢
  cases hrel
  rfl

end Query

end Registrar
