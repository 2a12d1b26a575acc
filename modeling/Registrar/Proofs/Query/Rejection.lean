import Registrar.Proofs.Query.Faults
import Registrar.Proofs.Query.Grammar

namespace Registrar

open Except Query

inductive Filter.Restricts (condition : Json) (raw : String) : List FieldClass → Prop
  | number {token : String} {literal : Json} (htoken : token ∈ ["GT", "LT", "EQ"])
      (h : Compares token raw literal condition) : Restricts condition raw [.numeric]
  | text {literal : Json} (h : Compares "IS" raw literal condition) :
      Restricts condition raw [.textual]

namespace Json

inductive Restricts (value : Json) (raw : String) : List FieldClass → Prop
  | compared {condition : Json} {classes : List FieldClass}
      (hwhere : value.field? "WHERE" = some condition)
      (h : Filter.Restricts condition raw classes) : Restricts value raw classes
  | aggregated {items : List Json} {name : String} (aggregate : Aggregate)
      (hitems : value.list? "TRANSFORMATIONS" "APPLY" = some items)
      (hitem : .obj [(name, .obj [(aggregate.token, .str raw)])] ∈ items) :
      Restricts value raw (Grammar.classesOf aggregate)

def BoundTo (known : Known) (value : Json) (id : String) (kind : Kind) : Prop :=
  (∀ other, value.Names other ↔ other = id) ∧ Keyed.find? known id = some kind

inductive Unbound (known : Known) (value : Json) : Prop
  | several {id other : String} (hid : value.Names id) (hother : value.Names other)
      (hne : id ≠ other)
  | unknown {id : String} (hid : ∀ other, value.Names other ↔ other = id)
      (h : Keyed.find? known id = none)

end Json

namespace Rejection

inductive Unfit (kind : Kind) (places : Key → Prop) (operators : Key → List FieldClass → Prop) :
    Rejection → Prop
  | unknown {k : Key} (hk : places k) (h : kind.classify k.field = .unknown) :
      Unfit kind places operators (.invalidKey k.text)
  | mismatch {r : Rejection} {k : Key} {classes : List FieldClass} (hk : operators k classes)
      (h : kind.classify k.field ∉ classes) (hcode : r.code = .typeMismatch)
      (hkey : r.key? = some k.text) : Unfit kind places operators r

variable {kind : Kind} {places places' : Key → Prop}
  {operators operators' : Key → List FieldClass → Prop}

theorem Unfit.mono {r : Rejection} (h : r.Unfit kind places operators)
    (hplaces : ∀ k, places k → places' k)
    (hoperators : ∀ k classes, operators k classes → operators' k classes) :
    r.Unfit kind places' operators' := by
  cases h with
  | unknown hk h => exact .unknown (hplaces _ hk) h
  | mismatch hk h hcode hkey => exact .mismatch (hoperators _ _ hk) h hcode hkey

end Rejection

namespace Filter

variable {kind : Kind} {places : Key → Prop} {operators : Key → List FieldClass → Prop} {key : Key}

theorem raises_checkNumeric (hplace : places key) (hoperator : operators key [.numeric]) :
    (checkNumeric kind key).Raises (Rejection.Unfit kind places operators) := by
  unfold checkNumeric
  split
  · exact raises_ok
  · next h => exact raises_error (.mismatch hoperator (by rw [h]; decide) rfl rfl)
  · next h => exact raises_error (.unknown hplace h)

theorem raises_checkTextual (hplace : places key) (hoperator : operators key [.textual]) :
    (checkTextual kind key).Raises (Rejection.Unfit kind places operators) := by
  unfold checkTextual
  split
  · exact raises_ok
  · next h => exact raises_error (.mismatch hoperator (by rw [h]; decide) rfl rfl)
  · next h => exact raises_error (.unknown hplace h)

def Unfit (kind : Kind) (keys : List Key) (value : Json) : Rejection → Prop :=
  Rejection.Unfit kind
    (fun k => k ∈ keys ∧ k.Proper ∧ ∃ token literal, Compares token k.text literal value)
    fun k classes => k ∈ keys ∧ k.Proper ∧ Restricts value k.text classes

theorem Restricts.within {value outer : Json} {raw : String} {classes : List FieldClass}
    (h : Restricts value raw classes)
    (hwithin : ∀ token raw literal, Compares token raw literal value →
      Compares token raw literal outer) : Restricts outer raw classes := by
  cases h with
  | number htoken h => exact .number htoken (hwithin _ _ _ h)
  | text h => exact .text (hwithin _ _ _ h)

theorem Unfit.within {keys others : List Key} {value outer : Json} {r : Rejection}
    (h : Unfit kind keys value r) (hkeys : ∀ k ∈ keys, k ∈ others)
    (hwithin : ∀ token raw literal, Compares token raw literal value →
      Compares token raw literal outer) : Unfit kind others outer r := by
  refine h.mono ?_ ?_
  · rintro k ⟨hk, hproper, token, literal, hcompares⟩
    exact ⟨hkeys k hk, hproper, token, literal, hwithin _ _ _ hcompares⟩
  · rintro k classes ⟨hk, hproper, hrestricts⟩
    exact ⟨hkeys k hk, hproper, hrestricts.within hwithin⟩

theorem raises_check {f : Filter} {value : Json} (h : Written f value) :
    (f.check kind).Raises (Unfit kind f.keys value) := by
  refine @Written.rec (fun f value _ => (f.check kind).Raises (Unfit kind f.keys value))
    (fun parts items _ => (checkAll kind parts).Raises fun r =>
      ∃ item ∈ items, Unfit kind (listKeys parts) item r)
    ?not ?and ?or ?number ?text ?nil ?cons f value h
  case not =>
    intro inner payload _ ih
    exact ih.mono fun r hr => hr.within (fun _ => id) fun _ _ _ => .not
  case and =>
    intro parts items _ _ ih
    refine ih.mono ?_
    rintro r ⟨item, hitem, hr⟩
    exact hr.within (fun _ => id) fun _ _ _ => .and hitem
  case or =>
    intro parts items _ _ ih
    refine ih.mono ?_
    rintro r ⟨item, hitem, hr⟩
    exact hr.within (fun _ => id) fun _ _ _ => .or hitem
  case number =>
    intro comparison key literal x hkey _
    have htoken : comparison.token ∈ ["GT", "LT", "EQ"] :=
      Grammar.mem_comparisons_iff.mpr ⟨comparison, rfl⟩
    have hcompares := Compares.number comparison key.text literal
    exact raises_checkNumeric ⟨List.mem_cons_self, hkey, comparison.token, literal, hcompares⟩
      ⟨List.mem_cons_self, hkey, .number htoken hcompares⟩
  case text =>
    intro key raw pattern hkey _
    have hcompares := Compares.text key.text (.str raw)
    exact raises_checkTextual ⟨List.mem_cons_self, hkey, "IS", .str raw, hcompares⟩
      ⟨List.mem_cons_self, hkey, .text hcompares⟩
  case nil => exact raises_ok
  case cons =>
    intro f rest item items _ _ ihhead ihtail
    refine Raises.bind (ihhead.mono fun r hr => ?_) fun _ _ => ihtail.mono ?_
    · exact ⟨item, List.mem_cons_self, hr.within (fun k hk => List.mem_append_left _ hk)
        fun _ _ _ => id⟩
    · rintro r ⟨other, hother, hr⟩
      exact ⟨other, List.mem_cons_of_mem _ hother,
        hr.within (fun k hk => List.mem_append_right _ hk) fun _ _ _ => id⟩

end Filter

namespace Query

variable {kind : Kind} {places : Key → Prop} {operators : Key → List FieldClass → Prop}

theorem raises_checkKnown {key : Key} (hplace : places key) :
    (checkKnown kind key).Raises (Rejection.Unfit kind places operators) := by
  unfold checkKnown
  split
  · exact raises_ok
  · next h =>
    exact raises_error (.unknown hplace (by simpa [FieldClass.isKnown] using h))

theorem raises_checkRule {rule : Rule} (hplace : places rule.key)
    (hoperator : operators rule.key (Grammar.classesOf rule.aggregate)) :
    (checkRule kind rule).Raises (Rejection.Unfit kind places operators) := by
  unfold checkRule
  split
  · next h => exact raises_error (.unknown hplace h)
  · next h =>
    split
    · next hnumeric =>
      refine raises_error (.mismatch hoperator ?_ rfl rfl)
      rw [h, Grammar.mem_classesOf_iff]
      exact fun hmem => nomatch hmem.2 hnumeric
    · exact raises_ok
  · exact raises_ok

def Unfit (kind : Kind) (keys : List Key) (value : Json) : Rejection → Prop :=
  Rejection.Unfit kind (fun k => k ∈ keys ∧ k.Proper ∧ value.HasKey k.text)
    fun k classes => k ∈ keys ∧ k.Proper ∧ value.Restricts k.text classes

theorem check_eq (kind : Kind) (q : Query) : q.check kind = (do
    (match q.filter with | some f => f.check kind | none => pure ())
    q.columns.forM (checkColumn kind)
    match q.grouping with
    | some g => do g.keys.forM (checkKnown kind); g.rules.forM (checkRule kind)
    | none => pure ()) := by
  rw [check]
  cases q.filter <;> rfl

theorem raises_check {q : Query} {value : Json} (hlegal : q.Legal) (hwritten : q.Written value) :
    (q.check kind).Raises (Unfit kind q.keys value) := by
  obtain @⟨members, condition, options, _, hwhere, hoptions, hfiltered, hselected, hgrouped⟩ :=
    hwritten
  have hfield (name : String) : (Json.obj members).field? name = Keyed.find? members name := rfl
  rw [check_eq]
  refine Raises.bind ?filter fun _ _ => (raises_forM ?columns).bind fun _ _ => ?grouping
  case filter =>
    split
    · next f hf =>
      rw [hf] at hfiltered
      cases hfiltered with
      | filter hbody =>
          have hkeys (k : Key) (hk : k ∈ f.keys) : k ∈ q.keys := mem_keys_iff.mpr (.inl ⟨f, hf, hk⟩)
          refine (Filter.raises_check hbody).mono fun r hr => hr.mono ?_ ?_
          · rintro k ⟨hk, hproper, token, literal, hcompares⟩
            exact ⟨hkeys k hk, hproper, .compared ((hfield _).trans hwhere) hcompares⟩
          · rintro k classes ⟨hk, hproper, hrestricts⟩
            exact ⟨hkeys k hk, hproper, .compared ((hfield _).trans hwhere) hrestricts⟩
    · exact raises_pure
  case columns =>
    obtain ⟨_, hlisted, _⟩ := hselected
    have hcolumns := Json.list?_eq_some ((hfield _).trans hoptions) hlisted
    intro c hc
    cases c with
    | key k =>
        have hk : k ∈ q.keys := mem_keys_iff.mpr (.inr (.inl hc))
        have hitem : Json.str k.text ∈ q.columns.map Column.toJson := List.mem_map_of_mem hc
        exact raises_checkKnown ⟨hk, (hlegal.columns _ hc).1,
          .column hcolumns hitem (.inr k.separator_mem_text)⟩
    | apply => exact raises_ok
  case grouping =>
    split
    · next g hg =>
      have hg : g ∈ q.grouping := hg
      have hkeys (k : Key) (hk : k ∈ g.keys ∨ ∃ r ∈ g.rules, r.key = k) : k ∈ q.keys :=
        mem_keys_iff.mpr (.inr (.inr ⟨g, hg, hk⟩))
      rw [Option.mem_def.mp hg] at hgrouped
      generalize hfound : Keyed.find? members "TRANSFORMATIONS" = found at hgrouped
      obtain @⟨_, _, ⟨_, hgroup, happly⟩⟩ := hgrouped
      have hgroups := Json.list?_eq_some ((hfield _).trans hfound) hgroup
      have hrules := Json.list?_eq_some ((hfield _).trans hfound) happly
      refine (raises_forM fun k hk => ?_).bind fun _ _ => raises_forM fun rule hrule => ?_
      · exact raises_checkKnown ⟨hkeys k (.inl hk), (hlegal.grouping g hg).proper k hk,
          .grouped hgroups (List.mem_map_of_mem hk)⟩
      · have hk := hkeys rule.key (.inr ⟨rule, hrule, rfl⟩)
        have hproper := ((hlegal.grouping g hg).rules rule hrule).proper
        have hitem : rule.toJson ∈ g.rules.map Rule.toJson := List.mem_map_of_mem hrule
        exact raises_checkRule ⟨hk, hproper, .aggregated hrules hitem⟩
          ⟨hk, hproper, .aggregated rule.aggregate hrules hitem⟩
    · exact raises_pure

variable {known : Known} {q : Query} {value : Json}

theorem boundTo_of_bind {id : String} (hread : ofJson value = .ok q)
    (h : q.bind known = .ok (id, kind)) : value.BoundTo known id kind := by
  obtain ⟨⟨hne, hall⟩, hfind⟩ := (bind_eq_ok_iff known q id kind).mp h
  refine ⟨fun other => ?_, hfind⟩
  rw [Json.names_iff_of_ofJson hread]
  constructor
  · rintro ⟨k, hk, rfl⟩
    exact hall k hk
  · rintro rfl
    obtain ⟨k, hk⟩ := List.exists_mem_of_ne_nil _ hne
    exact ⟨k, hk, hall k hk⟩

theorem raises_bind (hread : ofJson value = .ok q) :
    (q.bind known).Raises fun r => r.code = .datasetBinding ∧ value.Unbound known := by
  have hnames (id : String) : value.Names id ↔ id ∈ q.datasets := by
    rw [Json.names_iff_of_ofJson hread, mem_datasets_iff]
  have hnodup : q.datasets.Nodup := Keyed.nodup_keys (Keyed.ascending_ofList _)
  unfold bind
  split
  · next h =>
    have hne := (ofJson_eq_ok_iff.mp hread).1.keys_ne_nil
    obtain ⟨k, hk⟩ := List.exists_mem_of_ne_nil _ hne
    have hmem := (mem_datasets_iff q k.dataset).mpr ⟨k, hk, rfl⟩
    rw [h] at hmem
    cases hmem
  · next id h =>
    split
    · exact raises_ok
    · next hnone =>
      refine raises_error ⟨rfl, .unknown (fun other => ?_) hnone⟩
      rw [hnames, h, List.mem_singleton]
  · next hnil hone =>
    refine raises_error ⟨rfl, ?_⟩
    cases hids : q.datasets with
    | nil => exact (hnil hids).elim
    | cons id rest =>
        cases rest with
        | nil => exact (hone id hids).elim
        | cons other rest =>
            rw [hids, List.nodup_cons] at hnodup
            refine .several ((hnames id).mpr ?_) ((hnames other).mpr ?_) fun heq => hnodup.1 ?_
            · rw [hids]
              exact List.mem_cons_self
            · rw [hids]
              exact List.mem_cons_of_mem _ List.mem_cons_self
            · rw [heq]
              exact List.mem_cons_self

end Query

theorem Json.BoundTo.not_unbound {known : Known} {value : Json} {id : String} {kind : Kind}
    (h : value.BoundTo known id kind) : ¬value.Unbound known := by
  obtain ⟨hnames, hfind⟩ := h
  rintro (⟨hid, hother, hne⟩ | ⟨hid, hnone⟩)
  · exact hne (((hnames _).mp hid).trans ((hnames _).mp hother).symm)
  · cases (hid id).mp ((hnames id).mpr rfl)
    cases hnone.symm.trans hfind

theorem Json.Unbound.not_isMalformed {known : Known} {value : Json} (h : value.Unbound known) :
    ¬value.IsMalformed := by
  have hnamed : ∃ id, value.Names id := by
    rcases h with ⟨hid, _, _⟩ | ⟨hid, _⟩
    · exact ⟨_, hid⟩
    · exact ⟨_, (hid _).mpr rfl⟩
  obtain ⟨_, q, hlegal, hwritten, _⟩ := hnamed
  exact fun hmalformed => hmalformed q hlegal hwritten

namespace Rejection

structure Justified (known : Known) (value : Json) (r : Rejection) : Prop where
  malformed : r.code ∈ [.malformed, .invalidWildcard, .duplicateApplyKey] → value.IsMalformed
  binding : r.code = .datasetBinding ↔ ¬value.IsMalformed ∧ value.Unbound known
  mismatch : r.code = .typeMismatch → ∃ id kind, value.BoundTo known id kind ∧
    ∃ (k : Key) (classes : List FieldClass), r.key? = some k.text ∧ k.Proper ∧ k.dataset = id ∧
      value.Restricts k.text classes ∧ kind.classify k.field ∉ classes
  key : r.code = .invalidKey → ∃ raw, r.key? = some raw ∧ value.HasKey raw ∧
    (value.IsMalformed ∧ (∀ k : Key, k.Proper → raw ≠ k.text) ∨
      ∃ id kind, value.BoundTo known id kind ∧
        ∃ k : Key, raw = k.text ∧ k.Proper ∧ k.dataset = id ∧ k.field ∉ kind.fields)
  wildcard : r.code = .invalidWildcard → ∃ pattern, value.HasPattern pattern ∧
    ¬Pattern.Legal pattern ∧
    r.message = "Pattern '" ++ pattern ++ "' may only use '*' as a leading or trailing wildcard"
  duplicate : r.code = .duplicateApplyKey → ∃ name, r.key? = some name ∧
    Rule.IsBadName value.declared name

variable {known : Known} {value : Json} {r : Rejection}

theorem justified_of_fault (hmalformed : value.IsMalformed) (h : Query.Fault value r) :
    r.Justified known value := by
  have hbound : r.code ≠ .datasetBinding ∧ r.code ≠ .typeMismatch := by
    cases h with
    | shape h => rw [h]; decide
    | key => exact ⟨nofun, nofun⟩
    | pattern => exact ⟨nofun, nofun⟩
    | name _ _ hcode => rw [hcode]; decide
  constructor
  case malformed => exact fun _ => hmalformed
  case binding => exact iff_of_false hbound.1 fun h => h.1 hmalformed
  case mismatch => exact fun hcode => (hbound.2 hcode).elim
  case key =>
    intro hcode
    cases h with
    | shape h => cases h.symm.trans hcode
    | key hraw h => exact ⟨_, rfl, hraw, .inl ⟨hmalformed, h⟩⟩
    | pattern => nomatch hcode
    | name _ _ hname => cases hname.symm.trans hcode
  case wildcard =>
    intro hcode
    cases h with
    | shape h => cases h.symm.trans hcode
    | key => nomatch hcode
    | pattern hpattern h => exact ⟨_, hpattern, h, rfl⟩
    | name _ _ hname => cases hname.symm.trans hcode
  case duplicate =>
    intro hcode
    cases h with
    | shape h => cases h.symm.trans hcode
    | key => nomatch hcode
    | pattern => nomatch hcode
    | name name hname _ hkey => exact ⟨name, hkey, hname⟩

theorem justified_of_unbound (hcode : r.code = .datasetBinding) (h : value.Unbound known) :
    r.Justified known value := by
  have hother {code : RejectionCode} (h : r.code = code) : code = .datasetBinding :=
    h.symm.trans hcode
  constructor
  case malformed => simp [hcode]
  case binding => exact iff_of_true hcode ⟨h.not_isMalformed, h⟩
  case mismatch => exact fun h => nomatch hother h
  case key => exact fun h => nomatch hother h
  case wildcard => exact fun h => nomatch hother h
  case duplicate => exact fun h => nomatch hother h

theorem justified_of_unfit {id : String} {kind : Kind} {keys : List Key}
    (hbound : value.BoundTo known id kind) (hkeys : ∀ k ∈ keys, k.dataset = id)
    (h : Query.Unfit kind keys value r) : r.Justified known value := by
  have hcodes : r.code = .invalidKey ∨ r.code = .typeMismatch := by
    cases h with
    | unknown => exact .inl rfl
    | mismatch _ _ hcode => exact .inr hcode
  have hother {code : RejectionCode} (h : r.code = code) :
      code = .invalidKey ∨ code = .typeMismatch := h ▸ hcodes
  constructor
  case malformed => rcases hcodes with hcode | hcode <;> simp [hcode]
  case binding =>
    refine iff_of_false (fun h => ?_) fun h => hbound.not_unbound h.2
    rcases hother h with hcode | hcode <;> cases hcode
  case mismatch =>
    intro hcode
    cases h with
    | unknown => nomatch hcode
    | mismatch hk h _ hkey =>
        obtain ⟨hmem, hproper, hrestricts⟩ := hk
        exact ⟨id, kind, hbound, _, _, hkey, hproper, hkeys _ hmem, hrestricts, h⟩
  case key =>
    intro hcode
    cases h with
    | mismatch _ _ hmismatch => cases hmismatch.symm.trans hcode
    | unknown hk h =>
        obtain ⟨hmem, hproper, hplace⟩ := hk
        refine ⟨_, rfl, hplace, .inr ⟨id, kind, hbound, _, rfl, hproper, hkeys _ hmem, ?_⟩⟩
        exact fun hfield => (kind.classify_ne_unknown_iff _).mpr hfield h
  case wildcard =>
    intro h
    rcases hother h with hcode | hcode <;> cases hcode
  case duplicate =>
    intro h
    rcases hother h with hcode | hcode <;> cases hcode

end Rejection

theorem Bound.justified_of_ofJson {known : Known} {value : Json} {r : Rejection}
    (h : ofJson known value = .error r) : r.Justified known value := by
  rw [ofJson, bind_eq_error_iff] at h
  rcases h with h | ⟨q, hread, h⟩
  · exact Rejection.justified_of_fault (Json.isMalformed_iff.mpr ⟨r, h⟩)
      (Query.raises_ofJson value r h)
  · rcases bind_eq_error_iff.mp h with h | ⟨⟨id, kind⟩, hbind, h⟩
    · obtain ⟨hcode, hunbound⟩ := Query.raises_bind hread r h
      exact Rejection.justified_of_unbound hcode hunbound
    · obtain ⟨hlegal, hwritten⟩ := Query.ofJson_eq_ok_iff.mp hread
      obtain ⟨⟨_, hkeys⟩, _⟩ := (Query.bind_eq_ok_iff known q id kind).mp hbind
      rcases bind_eq_error_iff.mp h with h | ⟨_, _, h⟩
      · exact Rejection.justified_of_unfit (Query.boundTo_of_bind hread hbind) hkeys
          (Query.raises_check hlegal hwritten r h)
      · cases h

namespace Sample

def asked (condition : Json) (column : String) : Json :=
  .obj [("OPTIONS", .obj [("COLUMNS", .arr [.str column])]), ("WHERE", condition)]

def mistyped : Json := asked (.obj [("GT", .obj [("marks_dept", .int 50)])]) "marks_seats"

end Sample

theorem justified_mistyped :
    Bound.ofJson [("marks", .courses)] Sample.mistyped = .error (.notNumericField "marks_dept") ∧
      (Rejection.notNumericField "marks_dept").Justified [("marks", .courses)] Sample.mistyped ∧
      (∀ column ∈ ["marks", "halls_seats"], ∃ r,
        Bound.ofJson [("marks", .courses)] (Sample.asked (.obj []) column) = .error r ∧
          r.Justified [("marks", .courses)] (Sample.asked (.obj []) column)) := by
  have hmistyped : Bound.ofJson [("marks", .courses)] Sample.mistyped =
      .error (.notNumericField "marks_dept") := rfl
  refine ⟨hmistyped, Bound.justified_of_ofJson hmistyped, ?_⟩
  simp only [List.forall_mem_cons]
  exact ⟨⟨_, rfl, Bound.justified_of_ofJson rfl⟩, ⟨_, rfl, Bound.justified_of_ofJson rfl⟩, nofun⟩

end Registrar
