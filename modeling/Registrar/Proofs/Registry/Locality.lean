import Registrar.Proofs.Registry.Interleaving

namespace Registrar

theorem Query.bind_congr {known known' : Known} {q : Query}
    (h : ∀ k ∈ q.keys, Keyed.find? known k.dataset = Keyed.find? known' k.dataset) :
    q.bind known = q.bind known' := by
  rw [bind, bind]
  split
  · rfl
  · next id hid =>
    obtain ⟨k, hk, rfl⟩ := (q.mem_datasets_iff id).mp (hid ▸ List.mem_singleton_self id)
    rw [h k hk]
  · rfl

namespace Bound

variable {known known' : Known} {value : Json} {b : Bound}

theorem ofJson_congr
    (h : ∀ id, value.Names id → Keyed.find? known id = Keyed.find? known' id) :
    ofJson known value = ofJson known' value := by
  rw [ofJson, ofJson]
  cases hq : Query.ofJson value with
  | error => rfl
  | ok q =>
      have hbind : q.bind known = q.bind known' := Query.bind_congr fun k hk =>
        h k.dataset ((Json.names_iff_of_ofJson hq).mpr ⟨k, hk, rfl⟩)
      change (q.bind known >>= _) = (q.bind known' >>= _)
      rw [hbind]

theorem names_dataset (h : ofJson known value = .ok b) : value.Names b.dataset := by
  obtain ⟨⟨hlegal, _, hdataset⟩, hwritten, _⟩ := (ofJson_eq_ok_iff known value b).mp h
  obtain ⟨k, hk⟩ := List.exists_mem_of_ne_nil _ hlegal.keys_ne_nil
  exact ⟨b.query, hlegal, hwritten, k, hk, hdataset k hk⟩

end Bound

theorem Answer.ofQuery_congr {limit : Nat} {known known' : Known}
    {records records' : String → Option (List Record)} {value : Json}
    (hknown : ∀ id, value.Names id → Keyed.find? known id = Keyed.find? known' id)
    (hrecords : ∀ id, value.Names id → records id = records' id) :
    ofQuery limit known records value = ofQuery limit known' records' value := by
  rw [ofQuery, ofQuery, ← Bound.ofJson_congr hknown]
  cases hb : Bound.ofJson known value with
  | error => rfl
  | ok b =>
      dsimp only
      rw [hrecords b.dataset (Bound.names_dataset hb)]

theorem Answer.rejected_of_ofQuery {limit : Nat} {known : Known}
    {records : String → Option (List Record)} {value : Json} {cause : Rejection} :
    ofQuery limit known records value = .error (.rejected cause) ↔
      Bound.ofJson known value = .error cause := by
  rw [ofQuery]
  cases hb : Bound.ofJson known value with
  | error => simp
  | ok b =>
      refine iff_of_false (fun h => ?_) (fun h => ?_)
      · dsimp only at h
        split at h
        · cases h
        · split at h <;> cases h
      · cases h

namespace Registry

def SameKinds (r s : Registry) (ids : String → Prop) : Prop :=
  ∀ id, ids id → Keyed.find? r.known id = Keyed.find? s.known id

def SameRecords (r s : Registry) (ids : String → Prop) : Prop :=
  ∀ id, ids id → r.records? id = s.records? id

theorem query_rejected_iff {r : Registry} {queryId : String} {value : Json} {cause : Rejection} :
    (r.query queryId value).result = .error (.rejected cause) ↔
      Bound.ofJson r.known value = .error cause := by
  rw [query_result, Except.map_eq_error_iff, answer, Answer.rejected_of_ofQuery]

theorem query_local (value : Json) (r s : Registry) (queryId otherId : String) :
    (r.limit = s.limit → r.SameKinds s value.Names → r.SameRecords s value.Names →
        (r.query queryId value).result = (s.query otherId value).result) ∧
      (∀ cause, r.SameKinds s value.Names →
        (r.query queryId value).result = .error (.rejected cause) →
        (s.query otherId value).result = .error (.rejected cause)) ∧
      (value.IsMalformed → ∃ cause, ∀ (t : Registry) (id : String),
        (t.query id value).result = .error (.rejected cause)) := by
  refine ⟨fun hlimit hkinds hrecords => ?_, fun cause hkinds hrejected => ?_, fun hmalformed => ?_⟩
  · rw [query_result, query_result, answer, answer, hlimit, Answer.ofQuery_congr hkinds hrecords]
  · rw [query_rejected_iff, ← Bound.ofJson_congr hkinds]
    exact query_rejected_iff.mp hrejected
  · obtain ⟨cause, hcause⟩ := Json.isMalformed_iff.mp hmalformed
    refine ⟨cause, fun t id => query_rejected_iff.mpr ?_⟩
    rw [Bound.ofJson, hcause]
    rfl

end Registry

namespace Sample

def crowded : Registry :=
  (Registry.fresh 5000).after [.add { rooms with id := "halls" }, .add { marks with addedAt := "now" }]

def seats : Json :=
  .obj [("OPTIONS", .obj [("COLUMNS", .arr [.str "marks_seats"])]), ("WHERE", .obj [])]

end Sample

theorem query_local_crowded :
    Sample.loaded.limit = Sample.crowded.limit ∧
      (∀ value ∈ [Sample.averages, Sample.seats],
        Sample.loaded.SameKinds Sample.crowded value.Names ∧
          Sample.loaded.SameRecords Sample.crowded value.Names) ∧
      (Sample.loaded.query "" Sample.averages).result =
        (Sample.crowded.query "" Sample.averages).result ∧
      (Sample.loaded.query "" Sample.seats).result =
        .error (.rejected (.invalidKey "marks_seats")) ∧
      (Sample.crowded.query "" Sample.seats).result =
        .error (.rejected (.invalidKey "marks_seats")) ∧
      Json.null.IsMalformed ∧
      ∃ cause, ∀ (t : Registry) (id : String),
        (t.query id .null).result = .error (.rejected cause) := by
  have hnames : ∀ value ∈ [Sample.averages, Sample.seats], ∀ id, value.Names id → id = "marks" := by
    have hmarks {value : Json} {q : Query} (hq : Query.ofJson value = .ok q)
        (hkeys : ∀ k ∈ q.keys, k.dataset = "marks") (id : String) (hid : value.Names id) :
        id = "marks" := by
      obtain ⟨k, hk, rfl⟩ := (Json.names_iff_of_ofJson hq).mp hid
      exact hkeys k hk
    simp only [List.forall_mem_cons]
    exact ⟨hmarks rfl (by decide), hmarks rfl (by decide), nofun⟩
  have hsame : ∀ value ∈ [Sample.averages, Sample.seats],
      Sample.loaded.SameKinds Sample.crowded value.Names ∧
        Sample.loaded.SameRecords Sample.crowded value.Names := by
    intro value hvalue
    refine ⟨fun id hid => ?_, fun id hid => ?_⟩ <;> cases hnames value hvalue id hid <;> rfl
  have hmalformed : Json.null.IsMalformed := Json.isMalformed_iff.mpr ⟨_, rfl⟩
  obtain ⟨haverages, hrecords⟩ := hsame Sample.averages List.mem_cons_self
  obtain ⟨hseats, _⟩ := hsame Sample.seats (List.mem_cons_of_mem _ List.mem_cons_self)
  have hrejected : (Sample.loaded.query "" Sample.seats).result =
      .error (.rejected (.invalidKey "marks_seats")) := rfl
  exact ⟨rfl, hsame,
    (Registry.query_local Sample.averages Sample.loaded Sample.crowded "" "").1 rfl haverages
      hrecords,
    hrejected,
    (Registry.query_local Sample.seats Sample.loaded Sample.crowded "" "").2.1 _ hseats hrejected,
    hmalformed,
    (Registry.query_local .null Sample.loaded Sample.crowded "" "").2.2 hmalformed⟩

end Registrar
