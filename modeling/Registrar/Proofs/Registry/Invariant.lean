import Registrar.Proofs.Catalog.Reading
import Registrar.Proofs.Registry.Interleaving
import Registrar.Proofs.Registry.Lifecycle
import Registrar.Proofs.Text.Bytes

namespace Registrar

structure Record.Fits (kind : Kind) (r : Record) : Prop where
  accepted : r.validate kind = .ok ()
  fields : ∀ field ∈ kind.fields, r.Finds kind field
  others : ∀ field, field ∉ kind.fields → r.get? field = none

theorem Record.Valid.fits {kind : Kind} {r : Record} (h : r.Valid kind) : r.Fits kind := by
  constructor
  case accepted => exact validate_eq_ok_iff.mpr h
  case fields => exact fun field hfield => h.finds ((kind.classify_ne_unknown_iff field).mpr hfield)
  case others =>
    intro field hfield
    refine h.get?_eq_none ?_
    by_contra hknown
    exact hfield ((kind.classify_ne_unknown_iff field).mp hknown)

def Call.FromJson : Call → Prop
  | .add _ => False
  | .addJson _ _ _ payload => payload.isWellFormed
  | .remove _ | .list | .query .. => True

theorem Dataset.finite_of_parseRecords {kind : Kind} {payload : Json} {records : List Record}
    (hpayload : payload.isWellFormed) (h : parseRecords kind payload = .ok records) :
    ∀ r ∈ records, r.Finite := by
  obtain ⟨items, hitems, hread⟩ := parseRecords_eq_ok_iff.mp h
  cases Json.array?_eq_some_iff.mp hitems
  exact hread.forall_mem_right (fun _ _ hr hitem => Record.finite_of_ofJson hitem hr)
    (Json.isWellFormed_arr_iff.mp hpayload)

theorem Call.Brings.finite {c : Call} {d : Dataset} (hd : c.Brings d) (hc : c.FromJson) :
    ∀ r ∈ d.records, r.Finite := by
  cases hd with
  | add => exact hc.elim
  | addJson h => exact Dataset.finite_of_parseRecords hc h

namespace Registry

def Lists (r : Registry) (ids : List String) : Prop :=
  (ids.Pairwise fun id other => Text.bytes id < Text.bytes other) ∧
    ∀ id, id ∈ ids ↔ (r.records? id).isSome

structure Upheld (r : Registry) : Prop where
  keyed : ∀ e ∈ r.datasets, e.2.id = e.1
  named : ∀ e ∈ r.datasets, (∃ c ∈ e.1.toList, ¬Text.isBlank c) ∧ Key.separator ∉ e.1.toList
  filled : ∀ e ∈ r.datasets, e.2.records ≠ []
  typed : ∀ e ∈ r.datasets, ∀ record ∈ e.2.records, record.Fits e.2.kind
  listed : r.Lists (r.summaries.map Dataset.Summary.id)
  counted : ∀ d ∈ r.summaries, ∃ records, r.records? d.id = some records ∧ d.rows = records.length
  known : ∀ id kind, Keyed.find? r.known id = some kind ↔
    ∃ d, Keyed.find? r.datasets id = some d ∧ d.kind = kind
  served : ∀ id, (Keyed.find? r.known id).isSome ↔ (r.records? id).isSome
  added : ∀ d ids, (r.add d).result = .ok ids → (r.add d).registry.Lists ids
  addedJson : ∀ now id kind payload ids, (r.addJson now id kind payload).result = .ok ids →
    (r.addJson now id kind payload).registry.Lists ids
  answered : ∀ id value fault, (r.query id value).result = .error fault →
    fault.code ≠ "QUERY_UNKNOWN_DATASET"

namespace Sound

variable {r : Registry}

theorem lists_ids (h : r.Sound) : r.Lists r.ids := by
  constructor
  · refine (Keyed.ascending_iff_keys.mp h.ascending).imp fun hlt => ?_
    exact Text.lt_iff_bytes_lt.mp hlt
  · intro id
    rw [records?, Option.isSome_map, Keyed.find?_isSome_iff]
    rfl

theorem ids_summaries (h : r.Sound) : r.summaries.map Dataset.Summary.id = r.ids := by
  rw [summaries, list, List.map_map, List.map_map]
  exact List.map_congr_left h.keyed

theorem counted (h : r.Sound) : ∀ d ∈ r.summaries,
    ∃ records, r.records? d.id = some records ∧ d.rows = records.length := by
  intro d hd
  rw [summaries, list, List.map_map] at hd
  obtain ⟨e, he, rfl⟩ := List.mem_map.mp hd
  refine ⟨e.2.records, records?_eq_some_iff.mpr ⟨e.2, ?_, rfl⟩, rfl⟩
  have hfind := Keyed.find?_of_mem h.ascending he
  rw [← h.keyed e he] at hfind
  exact hfind

theorem served (h : r.Sound) (id : String) :
    (Keyed.find? r.known id).isSome ↔ (r.records? id).isSome := by
  rw [find?_known h, records?, Option.isSome_map, Option.isSome_map]

theorem answered (h : r.Sound) (id : String) (value : Json) {fault : QueryFault}
    (hfault : (r.query id value).result = .error fault) :
    fault.code ≠ "QUERY_UNKNOWN_DATASET" := by
  intro hcode
  obtain ⟨dataset, rfl⟩ := QueryFault.code_eq_iff.mp hcode
  rw [query_result] at hfault
  obtain ⟨⟨kind, hknown⟩, hnone⟩ := Answer.unknown_of_ofQuery (Except.map_eq_error_iff.mp hfault)
  have hsome := (h.served dataset).mp (by rw [hknown]; rfl)
  rw [hnone] at hsome
  cases hsome

theorem upheld (h : r.Sound) : r.Upheld := by
  constructor
  case keyed => exact h.keyed
  case named =>
    intro e he
    rw [← h.keyed e he]
    exact Dataset.isId_iff.mp (h.sound e he).id
  case filled => exact fun e he => (h.sound e he).nonempty
  case typed => exact fun e he record hrecord => ((h.sound e he).valid record hrecord).fits
  case listed => exact h.ids_summaries ▸ h.lists_ids
  case counted => exact h.counted
  case known =>
    intro id kind
    rw [find?_known h, Option.map_eq_some_iff]
  case served => exact h.served
  case added =>
    intro d ids hids
    rw [((r.add_lawful d).changes ids hids).1]
    exact (h.next (.add d)).lists_ids
  case addedJson =>
    intro now id kind payload ids hids
    rw [((r.addJson_lawful now id kind payload).changes ids hids).1]
    exact (h.next (.addJson now id kind payload)).lists_ids
  case answered => exact fun id value fault => h.answered id value

end Sound

def Finite (r : Registry) : Prop :=
  ∀ e ∈ r.datasets, ∀ record ∈ e.2.records, record.Finite

theorem Finite.after {r : Registry} (h : r.Finite) {calls : List Call}
    (hcalls : ∀ c ∈ calls, c.FromJson) : (r.after calls).Finite := by
  intro e he
  rcases mem_after he with hold | ⟨c, hc, hd⟩
  · exact h e hold
  · exact hd.finite (hcalls c hc)

theorem upheld_after_calls (limit : Nat) (calls : List Call) :
    ((fresh limit).after calls).Upheld ∧
      ((∀ c ∈ calls, c.FromJson) → ((fresh limit).after calls).Finite) := by
  have hreachable := (Reachable.fresh limit).after calls
  exact ⟨hreachable.sound.upheld, Finite.after fun _ he => (List.not_mem_nil he).elim⟩

end Registry

namespace Sample

def hall : Json :=
  .obj
    [("address", .str "6245 Agronomy Road"), ("fullname", .str "Dempster"), ("furniture", .str ""),
      ("href", .str ""), ("lat", .int 49), ("lon", .int (-123)), ("name", .str "DMP_310"),
      ("number", .str "310"), ("seats", .int 120), ("shortname", .str "DMP"), ("type", .str "")]

def session : List Call :=
  [.addJson "" "salles été" .rooms (.arr [hall, hall]),
    .addJson "" "halls" .rooms (.arr [hall]),
    .addJson "" "halls" .rooms (.arr [hall, .null]),
    .query "" averages,
    .remove "marks"]

end Sample

theorem upheld_session :
    (∀ c ∈ Sample.session, c.FromJson) ∧
      ((Registry.fresh 5000).after Sample.session).ids = ["halls", "salles été"] ∧
      ((Registry.fresh 5000).after Sample.session).Upheld ∧
      ((Registry.fresh 5000).after Sample.session).Finite := by
  have hjson : ∀ c ∈ Sample.session, c.FromJson := by
    simp only [Sample.session, List.forall_mem_cons]
    exact ⟨rfl, rfl, rfl, trivial, trivial, nofun⟩
  obtain ⟨hupheld, hfinite⟩ := Registry.upheld_after_calls 5000 Sample.session
  exact ⟨hjson, rfl, hupheld, hfinite hjson⟩

end Registrar
