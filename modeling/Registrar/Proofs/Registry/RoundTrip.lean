import Registrar.Proofs.Answer.Plain
import Registrar.Proofs.Registry.Invariant

namespace Registrar

namespace Selection

variable (id : String) (kind : Kind) (fields : List String)

def query : Json :=
  .obj
    [("OPTIONS", .obj [("COLUMNS", .ofStrings (fields.map fun field => Key.text ⟨id, field⟩))]),
      ("WHERE", .obj [])]

def columns : List Column := fields.map fun field => .key ⟨id, field⟩

def bound : Bound := ⟨id, kind, ⟨none, columns id fields, none, none⟩⟩

variable {id kind fields}

theorem accepted_bound (hid : Dataset.isId id) (hfields : fields.Perm kind.fields) :
    (bound id kind fields).Accepted := by
  have hne : fields ≠ [] := by
    rintro rfl
    have hnone := hfields.symm.eq_nil
    revert hnone
    cases kind <;> decide
  exact Bound.accepted_of_fields hid hne (fun _ => hfields.mem_iff.mp) nofun nofun

theorem written_query : (bound id kind fields).query.Written (query id fields) := by
  refine .sections ?_ rfl rfl .everything (.sections ?_ ?_ .none) .none
  · simp [Query.Shape.Exactly, Keyed.keys]
  · simp [Query.Shape.Exactly, Keyed.keys]
  · rw [Json.ofStrings, bound, columns, List.map_map, List.map_map]
    rfl

theorem ofJson_query (hid : Dataset.isId id) (hfields : fields.Perm kind.fields) {known : Known}
    (hknown : Keyed.find? known id = some kind) :
    Bound.ofJson known (query id fields) = .ok (bound id kind fields) :=
  (Bound.ofJson_eq_ok_iff known _ _).mpr ⟨accepted_bound hid hfields, written_query, hknown⟩

theorem ofRecords_bound (limit : Nat) (records : List Record) :
    Answer.ofRecords limit (bound id kind fields) records =
      if limit < records.length then .error ⟨records.length, limit⟩
      else .ok
        { rows := records.map (Row.ofRecord id (columns id fields))
          scanned := records.length
          matched := records.length
          groups := 0 } := by
  have hmatching : (bound id kind fields).matching records = records :=
    List.filter_eq_self.mpr fun _ _ => rfl
  rw [Answer.ofRecords_eq, hmatching, Bound.rowsOf_plain rfl, List.length_map]
  rfl

end Selection

structure Row.Restores (id : String) (kind : Kind) (fields : List String) (item : Json)
    (row : Row) : Prop where
  names : row.names = fields.map fun field => Key.text ⟨id, field⟩
  numbers : ∀ field ∈ kind.numericFields, ∃ value x, item.field? field = some value ∧
    value.number? = some x ∧ row.get? (Key.text ⟨id, field⟩) = some (.number x)
  texts : ∀ field ∈ kind.textualFields, ∃ s, item.field? field = some (.str s) ∧
    row.get? (Key.text ⟨id, field⟩) = some (.text s)

theorem Selection.restores {id : String} {kind : Kind} {fields : List String}
    (hid : Dataset.isId id) (hfields : fields.Perm kind.fields) {item : Json} {r : Record}
    (hitem : item.isWellFormed) (hr : Record.ofJson kind item = .ok r) :
    Row.Restores id kind fields item (Row.ofRecord id (columns id fields) r) := by
  have hprojects := (accepted_bound hid hfields).projects_ofRecord rfl (Record.valid_of_ofJson hr)
  have hcell {field : String} (hfield : field ∈ kind.fields) :
      ∃ value cell, item.field? field = some value ∧
        Cell.Read (kind.classify field) value cell ∧
        (Row.ofRecord id (columns id fields) r).get? (Key.text ⟨id, field⟩) = some cell := by
    obtain ⟨value, cell, hvalue, hread, hget⟩ := Record.get?_of_ofJson hitem hr hfield
    have hcolumn : .key ⟨id, field⟩ ∈ (bound id kind fields).query.columns :=
      List.mem_map_of_mem (hfields.mem_iff.mpr hfield)
    obtain ⟨shown, hshown, hrow⟩ := hprojects.cells _ hcolumn
    cases hget.symm.trans hshown
    exact ⟨value, cell, hvalue, hread, hrow⟩
  constructor
  case names =>
    have hnodup : (fields.map fun field => Key.text ⟨id, field⟩).Nodup := by
      have hkind : kind.fields.Nodup := by cases kind <;> decide
      exact (hfields.nodup_iff.mpr hkind).map fun _ _ => Key.field_inj
    have hcolumns : (bound id kind fields).query.columns.map Column.name =
        fields.map fun field => Key.text ⟨id, field⟩ := by
      rw [bound, columns, List.map_map]
      rfl
    have hnames := hprojects.names
    rw [hcolumns, List.eraseDups_eq_self_of_nodup hnodup] at hnames
    exact hnames
  case numbers =>
    intro field hfield
    obtain ⟨value, cell, hvalue, hread, hrow⟩ := hcell (List.mem_append_left _ hfield)
    rw [(kind.classify_numeric_iff field).mpr hfield] at hread
    obtain @⟨_, x, hx⟩ := hread
    exact ⟨value, x, hvalue, hx, hrow⟩
  case texts =>
    intro field hfield
    obtain ⟨value, cell, hvalue, hread, hrow⟩ := hcell (List.mem_append_right _ hfield)
    rw [(kind.classify_textual_iff field).mpr hfield] at hread
    obtain _ | @⟨_, s, hs⟩ := hread
    cases Json.string?_eq_some_iff.mp hs
    exact ⟨s, hvalue, hrow⟩

namespace Registry

theorem select_all_after_addJson {r s : Registry} (hr : r.Reachable) {now id : String} {kind : Kind}
    {payload : Json} (hpayload : payload.isWellFormed) {ids : List String}
    (hadd : (r.addJson now id kind payload).result = .ok ids) {fields : List String}
    (hfields : fields.Perm kind.fields) {calls : List Call} (hcalls : ∀ c ∈ calls, c ≠ .remove id)
    (hs : r.after (.addJson now id kind payload :: calls) = s) (queryId : String) :
    ∃ items, payload = .arr items ∧
      (∃ b, Bound.ofJson s.known (Selection.query id fields) = .ok b) ∧
      (items.length ≤ r.limit →
        ∃ rows, (s.query queryId (Selection.query id fields)).result = .ok rows ∧
          List.Forall₂ (Row.Restores id kind fields) items rows) ∧
      (r.limit < items.length →
        (s.query queryId (Selection.query id fields)).result =
          .error (.tooLarge ⟨items.length, r.limit⟩)) := by
  obtain ⟨_, records, ⟨items, hitems, hread⟩, hgains⟩ :=
    (r.addJson_lawful now id kind payload).changes ids hadd
  cases Json.array?_eq_some_iff.mp hitems
  have hsound := (hr.after (.addJson now id kind (.arr items) :: calls)).sound
  have hlimit := r.limit_after (.addJson now id kind (.arr items) :: calls)
  have hfind : Keyed.find? s.datasets id = some ⟨id, kind, records, now⟩ :=
    hs ▸ find?_after hgains.there hcalls
  rw [hs] at hsound hlimit
  have hid := (hsound.of_find? hfind).1.id
  have hknown : Keyed.find? s.known id = some kind := by
    rw [find?_known hsound, hfind, Option.map_some]
  have hbound := Selection.ofJson_query hid hfields hknown
  have hanswer : (s.query queryId (Selection.query id fields)).result =
      if r.limit < items.length then .error (.tooLarge ⟨items.length, r.limit⟩)
      else .ok (records.map (Row.ofRecord id (Selection.columns id fields))) := by
    have hrecords : s.records? id = some records := records?_eq_some_iff.mpr ⟨_, hfind, rfl⟩
    rw [query_result, answer, Answer.ofQuery_of_bound hbound hrecords, Selection.ofRecords_bound,
      hlimit, ← hread.length_eq]
    split <;> rfl
  refine ⟨items, rfl, ⟨_, hbound⟩, fun hsmall => ?_, fun hlarge => ?_⟩
  · refine ⟨_, hanswer.trans (if_neg (Nat.not_lt.mpr hsmall)), ?_⟩
    rw [List.forall₂_map_right_iff]
    have hboth := (List.forall₂_and_left items records).mpr
      ⟨Json.isWellFormed_arr_iff.mp hpayload, hread⟩
    exact hboth.imp fun item record h => Selection.restores hid hfields h.1 h.2
  · exact hanswer.trans (if_pos hlarge)

end Registry

namespace Sample

def halls : Json := .arr [hall, hall]

def later : List Call :=
  [.addJson "" "halls" .rooms (.arr [hall]), .remove "halls", .add marks, .query "" averages]

def loadedHalls : Registry :=
  (Registry.fresh 2).after (.addJson "" "salles été" .rooms halls :: later)

def hallFields : List String := Kind.rooms.fields.reverse

end Sample

theorem select_all_halls :
    (Registry.fresh 2).Reachable ∧ Sample.halls.isWellFormed ∧
      ((Registry.fresh 2).addJson "" "salles été" .rooms Sample.halls).result =
        .ok ["salles été"] ∧
      Sample.hallFields.Perm Kind.rooms.fields ∧
      (∀ c ∈ Sample.later, c ≠ .remove "salles été") ∧
      ∃ rows,
        (Sample.loadedHalls.query "" (Selection.query "salles été" Sample.hallFields)).result =
          .ok rows ∧
        List.Forall₂ (Row.Restores "salles été" .rooms Sample.hallFields)
          [Sample.hall, Sample.hall] rows := by
  have hadd : ((Registry.fresh 2).addJson "" "salles été" .rooms Sample.halls).result =
      .ok ["salles été"] := rfl
  have hfields : Sample.hallFields.Perm Kind.rooms.fields := List.reverse_perm _
  have hlater : ∀ c ∈ Sample.later, c ≠ .remove "salles été" := by
    simp only [Sample.later, List.forall_mem_cons, ne_eq, Call.remove.injEq]
    exact ⟨nofun, by decide, nofun, nofun, nofun⟩
  obtain ⟨items, hitems, _, hsmall, _⟩ := @Registry.select_all_after_addJson _ Sample.loadedHalls
    (.fresh 2) "" _ _ _ rfl _ hadd _ hfields _ hlater rfl ""
  cases hitems
  exact ⟨.fresh 2, rfl, hadd, hfields, hlater, hsmall (by decide)⟩

end Registrar
