import Registrar.Boot.Start
import Registrar.Proofs.Keyed
import Registrar.Proofs.Registry.Lifecycle

namespace Registrar

open Json (Written)

namespace Config

structure At (files : Files) (path : String) (c : Config) : Prop where
  written : ∃ text, files.text path = .ok text ∧
    (Written.read? text).bind (ofWritten? (Path.parent path)) = some c
  port : 0 < c.service.port
  distinct : (c.sources.map Source.id).Nodup

theorem repeatedId?_eq_none_iff {seen : List String} {sources : List Source} :
    repeatedId? seen sources = none ↔
      (sources.map Source.id).Nodup ∧ ∀ s ∈ sources, s.id ∉ seen := by
  induction sources generalizing seen with
  | nil => simp [repeatedId?]
  | cons s rest ih =>
      rw [repeatedId?, List.map_cons, List.nodup_cons, List.forall_mem_cons]
      by_cases hs : s.id ∈ seen
      · simp [hs]
      · rw [if_neg (by simpa using hs), ih]
        simp only [List.mem_cons, not_or, List.mem_map]
        constructor
        · rintro ⟨hnodup, hrest⟩
          exact ⟨⟨fun ⟨t, ht, hname⟩ => (hrest t ht).1 hname, hnodup⟩, hs,
            fun t ht => (hrest t ht).2⟩
        · rintro ⟨⟨hfresh, hnodup⟩, _, hrest⟩
          exact ⟨hnodup, fun t ht => ⟨fun hname => hfresh ⟨t, ht, hname⟩, hrest t ht⟩⟩

theorem check_eq_ok_iff {c : Config} :
    c.check = .ok () ↔ 0 < c.service.port ∧ (c.sources.map Source.id).Nodup := by
  have hport : 0 < c.service.port ↔ c.service.port ≠ 0 := by
    rw [UInt16.lt_iff_toNat_lt, Ne, ← UInt16.toNat_inj]
    exact Nat.pos_iff_ne_zero
  have hdistinct : repeatedId? [] c.sources = none ↔ (c.sources.map Source.id).Nodup := by
    rw [repeatedId?_eq_none_iff]
    exact and_iff_left fun _ _ => List.not_mem_nil
  rw [check, hport, ← hdistinct]
  split
  · next h => simp [h]
  · next h => cases repeatedId? [] c.sources <;> simp [h]

theorem code_of_check {c : Config} {fault : StartFault} (h : c.check = .error fault) :
    fault.code = "CAMPUSQL_CLI_CONFIG_ERROR" := by
  rw [check] at h
  split at h
  · cases h
    rfl
  · split at h
    · cases h
      rfl
    · cases h

theorem load_eq_ok_iff {files : Files} {path : String} {c : Config} :
    load files path = .ok c ↔ c.At files path := by
  rw [load, Except.bind_eq_ok_iff]
  constructor
  · rintro ⟨text, htext, h⟩
    split at h
    · cases h
    · next hread =>
      rw [Except.bind_unit_eq_ok_iff, check_eq_ok_iff, Except.pure_eq_ok_iff] at h
      obtain ⟨⟨hport, hdistinct⟩, rfl⟩ := h
      exact ⟨⟨text, Except.mapError_eq_ok_iff.mp htext, hread⟩, hport, hdistinct⟩
  · rintro ⟨⟨text, htext, hread⟩, hport, hdistinct⟩
    refine ⟨text, Except.mapError_eq_ok_iff.mpr htext, ?_⟩
    rw [hread]
    exact Except.bind_unit_eq_ok_iff.mpr ⟨check_eq_ok_iff.mpr ⟨hport, hdistinct⟩, rfl⟩

theorem code_of_load {files : Files} {path : String} {fault : StartFault}
    (h : load files path = .error fault) : fault.code = "CAMPUSQL_CLI_CONFIG_ERROR" := by
  rw [load, Except.bind_eq_error_iff] at h
  rcases h with h | ⟨text, _, h⟩
  · obtain ⟨cause, _, rfl⟩ := Except.mapError_eq_error_iff.mp h
    rfl
  · split at h
    · cases h
      rfl
    · rw [Except.bind_unit_eq_error_iff] at h
      rcases h with h | ⟨_, h⟩
      · exact code_of_check h
      · cases h

theorem directory_of_ofWritten? {directory : String} {w : Written} {c : Config}
    (h : ofWritten? directory w = some c) : c.directory = directory := by
  rw [ofWritten?] at h
  obtain ⟨fields, _, h⟩ := Option.bind_eq_some_iff.mp h
  split at h
  · simp only [Option.bind_eq_bind, Option.bind_eq_some_iff, Option.pure_def,
      Option.some.injEq] at h
    obtain ⟨_, _, _, _, _, _, _, _, _, _, rfl⟩ := h
    rfl
  · cases h

theorem At.directory {files : Files} {path : String} {c : Config} (h : c.At files path) :
    c.directory = Path.parent path := by
  obtain ⟨_, _, hread⟩ := h.written
  obtain ⟨_, _, hread⟩ := Option.bind_eq_some_iff.mp hread
  exact directory_of_ofWritten? hread

theorem At.unique {files : Files} {path : String} {c other : Config} (h : c.At files path)
    (hother : other.At files path) : c = other :=
  Except.ok.inj ((load_eq_ok_iff.mpr h).symm.trans (load_eq_ok_iff.mpr hother))

end Config

theorem DatasetFault.code_eq_duplicate_iff {fault : DatasetFault} :
    fault.code = "DATASET_DUPLICATE" ↔ ∃ id, fault = .duplicate id := by
  cases fault <;> simp [code]

namespace Registry

def having (r : Registry) (d : Dataset) : Registry :=
  { r with datasets := Keyed.insert r.datasets d.id d, counters := r.counters.added }

theorem addJson_of_fresh_ok {r : Registry} {limit : Nat} {now id : String} {kind : Kind}
    {payload : Json} {ids : List String} {records : List Record} (habsent : id ∉ r.ids)
    (h : ((fresh limit).addJson now id kind payload).result = .ok ids)
    (hread : Dataset.Read kind payload records) :
    r.addJson now id kind payload =
      ⟨r.having ⟨id, kind, records, now⟩, .ok (r.having ⟨id, kind, records, now⟩).ids,
        [addedEntry ⟨id, kind, records, now⟩]⟩ := by
  have hparsed := Dataset.parseRecords_eq_ok_iff.mpr hread
  obtain ⟨others, hothers, hadmits⟩ := ((fresh limit).addJson_lawful ..).succeeds.mp ⟨ids, h⟩
  cases hparsed.symm.trans (Dataset.parseRecords_eq_ok_iff.mpr hothers)
  rw [addJson, hparsed]
  exact add_of_ok (tryAdd_eq_ok_iff.mpr ⟨hadmits.sound, not_mem_ids_iff.mp habsent, rfl⟩)

theorem refusesJson_of_fresh {r : Registry} {limit : Nat} {now id : String} {kind : Kind}
    {payload : Json} {fault : DatasetFault}
    (h : (fresh limit).RefusesJson now id kind payload fault) :
    r.RefusesJson now id kind payload fault ∧ fault.code ≠ "DATASET_DUPLICATE" := by
  rw [Ne, DatasetFault.code_eq_duplicate_iff]
  rcases h with h | ⟨hread, h | ⟨_, hthere⟩⟩
  · refine ⟨.unreadable h, ?_⟩
    rintro ⟨_, rfl⟩
    cases h
  · refine ⟨.read hread (.faulty h), ?_⟩
    rintro ⟨_, rfl⟩
    cases h
  · cases hthere

theorem result_addJson_of_fresh_error {r : Registry} {limit : Nat} {now id : String} {kind : Kind}
    {payload : Json} {fault : DatasetFault}
    (h : ((fresh limit).addJson now id kind payload).result = .error fault) :
    (r.addJson now id kind payload).result = .error fault := by
  have hfresh := (((fresh limit).addJson_lawful ..).fails fault).mp h
  exact ((r.addJson_lawful ..).fails fault).mpr (refusesJson_of_fresh hfresh).1

end Registry

namespace Source

variable {files : Files} {directory now : String} {s : Source}

def Holds (files : Files) (directory : String) (s : Source) (payload : Json) : Prop :=
  ∃ text, files.text (Path.join directory s.path) = .ok text ∧ Json.read? text = some payload

inductive Yields (files : Files) (directory now : String) (s : Source) : Dataset → Prop
  | intro {payload : Json} {ids : List String} {records : List Record}
      (hfile : s.Holds files directory payload)
      (haccepted : ((Registry.fresh Answer.standardLimit).addJson now s.id s.kind payload).result =
        .ok ids)
      (hread : Dataset.Read s.kind payload records) :
      Yields files directory now s ⟨s.id, s.kind, records, now⟩

inductive Fails (files : Files) (directory now : String) (s : Source) : StartFault → Prop
  | unreadable {cause : FileFault} (h : files.text (Path.join directory s.path) = .error cause) :
      Fails files directory now s (.unreadableDataset s.id (Path.join directory s.path) cause)
  | unparsed {text : String} (h : files.text (Path.join directory s.path) = .ok text)
      (hread : Json.read? text = none) :
      Fails files directory now s (.invalidDataset s.id Json.unreadable)
  | refused {payload : Json} {cause : DatasetFault} (h : s.Holds files directory payload)
      (hrefused : ((Registry.fresh Answer.standardLimit).addJson now s.id s.kind payload).result =
        .error cause) :
      Fails files directory now s (.rejectedDataset s.id cause)

theorem Holds.unique {payload other : Json} (h : s.Holds files directory payload)
    (hother : s.Holds files directory other) : payload = other := by
  obtain ⟨text, htext, hread⟩ := h
  obtain ⟨text', htext', hread'⟩ := hother
  cases htext.symm.trans htext'
  exact Option.some.inj (hread.symm.trans hread')

theorem Yields.id {d : Dataset} (h : s.Yields files directory now d) : d.id = s.id := by
  cases h
  rfl

theorem Yields.unique {d other : Dataset} (h : s.Yields files directory now d)
    (hother : s.Yields files directory now other) : d = other := by
  obtain ⟨hfile, _, hread⟩ := h
  obtain ⟨hfile', _, hread'⟩ := hother
  cases hfile.unique hfile'
  have hparsed := Dataset.parseRecords_eq_ok_iff.mpr hread
  cases hparsed.symm.trans (Dataset.parseRecords_eq_ok_iff.mpr hread')
  rfl

theorem Fails.not_yields {fault : StartFault} {d : Dataset}
    (h : s.Fails files directory now fault) : ¬s.Yields files directory now d := by
  rintro ⟨hfile, haccepted, _⟩
  obtain ⟨text, htext, hread⟩ := hfile
  cases h with
  | unreadable h => cases h.symm.trans htext
  | unparsed h hnone =>
      cases h.symm.trans htext
      cases hnone.symm.trans hread
  | refused h hrefused =>
      cases h.unique ⟨text, htext, hread⟩
      cases hrefused.symm.trans haccepted

theorem quoted_of_eq {message name : String} (lead start close rest tail : String)
    (hlead : lead = start ++ "'") (hclose : close = "'" ++ rest)
    (h : message = lead ++ name ++ close ++ tail) :
    ∃ start rest, message = start ++ "'" ++ name ++ "'" ++ rest := by
  refine ⟨start, rest ++ tail, ?_⟩
  rw [h, hlead, hclose]
  simp only [String.append_assoc]

structure Reported (s : Source) (fault : StartFault) : Prop where
  code : fault.code = "CAMPUSQL_CLI_DATASET_LOAD_FAILED"
  message : ∃ start rest, fault.message = start ++ "'" ++ s.id ++ "'" ++ rest
  cause : ∀ id cause, fault = .rejectedDataset id cause → cause.code ≠ "DATASET_DUPLICATE"

theorem Fails.reported {fault : StartFault} (h : s.Fails files directory now fault) :
    s.Reported fault := by
  constructor
  case code => cases h <;> rfl
  case message =>
    cases h with
    | @unreadable cause =>
        refine quoted_of_eq "Failed to read dataset '" "Failed to read dataset " "' from " " from "
          (Path.join directory s.path ++ (": " ++ cause.message)) rfl rfl ?_
        simp only [← String.append_assoc]
        rfl
    | unparsed =>
        exact quoted_of_eq "Dataset '" "Dataset " "' is not valid JSON: " " is not valid JSON: "
          Json.unreadable rfl rfl rfl
    | @refused _ cause =>
        refine quoted_of_eq "Dataset '" "Dataset " "' rejected (" " rejected ("
          (cause.code ++ ("): " ++ cause.message)) rfl rfl ?_
        simp only [← String.append_assoc]
        rfl
  case cause =>
    rintro id cause rfl
    cases h with
    | refused _ hrefused =>
        have hrefuses := ((Registry.fresh _).addJson_lawful ..).fails cause |>.mp hrefused
        exact (Registry.refusesJson_of_fresh (r := .fresh 0) hrefuses).2

end Source

structure Registry.Serves (files : Files) (directory now : String) (sources : List Source)
    (r : Registry) : Prop where
  ascending : Keyed.Ascending r.datasets
  datasets : ∀ id d, Keyed.find? r.datasets id = some d ↔
    ∃ s ∈ sources, s.id = id ∧ s.Yields files directory now d
  counters : r.counters = { Counters.zero with datasetsAdded := UInt64.ofNat sources.length }
  limit : r.limit = Answer.standardLimit

namespace Registry.Serves

variable {files : Files} {directory now : String} {sources others : List Source} {r r' : Registry}

theorem fresh : (Registry.fresh Answer.standardLimit).Serves files directory now [] :=
  ⟨.nil, fun _ _ => iff_of_false nofun nofun, rfl, rfl⟩

theorem perm (h : r.Serves files directory now sources) (hperm : others.Perm sources) :
    r.Serves files directory now others := by
  refine ⟨h.ascending, fun id d => ?_, ?_, h.limit⟩
  · rw [h.datasets]
    simp only [hperm.mem_iff]
  · rw [h.counters, hperm.length_eq]

theorem unique (h : r.Serves files directory now sources)
    (h' : r'.Serves files directory now sources) : r = r' := by
  have hdatasets : r.datasets = r'.datasets := by
    refine Keyed.eq_of_find? h.ascending h'.ascending fun id => Option.ext fun d => ?_
    rw [h.datasets, h'.datasets]
  obtain ⟨_, _, _⟩ := r
  obtain ⟨_, _, _⟩ := r'
  cases hdatasets
  cases h.counters.trans h'.counters.symm
  cases h.limit.trans h'.limit.symm
  rfl

theorem not_mem_ids (h : r.Serves files directory now sources) {id : String}
    (hid : id ∉ sources.map Source.id) : id ∉ r.ids := by
  rw [not_mem_ids_iff, Option.eq_none_iff_forall_ne_some]
  intro d hfind
  obtain ⟨s, hs, rfl, _⟩ := (h.datasets id d).mp hfind
  exact hid (List.mem_map_of_mem hs)

theorem having (h : r.Serves files directory now sources) {s : Source} {d : Dataset}
    (hid : s.id ∉ sources.map Source.id) (hs : s.Yields files directory now d) :
    (r.having d).Serves files directory now (sources ++ [s]) := by
  constructor
  case ascending => exact Keyed.ascending_insert _ _ h.ascending
  case datasets =>
    intro id other
    rw [Registry.having]
    by_cases hname : d.id = id
    · rw [← hname, Keyed.find?_insert_self, Option.some.injEq]
      constructor
      · rintro rfl
        exact ⟨s, List.mem_append_right _ List.mem_cons_self, hs.id.symm, hs⟩
      · rintro ⟨t, ht, htid, hother⟩
        rcases List.mem_append.mp ht with ht | ht
        · exact (hid ((hs.id.symm.trans htid.symm) ▸ List.mem_map_of_mem ht)).elim
        · cases List.mem_singleton.mp ht
          exact hs.unique hother
    · rw [Keyed.find?_insert_of_ne _ _ hname, h.datasets]
      constructor
      · rintro ⟨t, ht, hother⟩
        exact ⟨t, List.mem_append_left _ ht, hother⟩
      · rintro ⟨t, ht, htid, hother⟩
        rcases List.mem_append.mp ht with ht | ht
        · exact ⟨t, ht, htid, hother⟩
        · cases List.mem_singleton.mp ht
          exact (hname (hs.id.trans htid)).elim
  case counters =>
    rw [Registry.having, h.counters, List.length_append, List.length_singleton, UInt64.ofNat_add]
    rfl
  case limit => exact h.limit

end Registry.Serves

namespace Config

variable {files : Files} {now : String} {c : Config}

theorem readSource_eq_ok_iff {s : Source} {payload : Json} :
    c.readSource files s = .ok payload ↔ s.Holds files c.directory payload := by
  rw [readSource, Except.bind_eq_ok_iff]
  refine exists_congr fun text => and_congr Except.mapError_eq_ok_iff ?_
  cases Json.read? text with
  | none => exact iff_of_false Except.throw_eq_ok_iff.mp nofun
  | some => rw [Except.pure_eq_ok_iff, Option.some.injEq]

theorem loadSources_of_fails {r : Registry} {s : Source} {fault : StartFault}
    (h : s.Fails files c.directory now fault) (rest : List Source) :
    (c.loadSources files now r (s :: rest)).result = .error fault := by
  rw [loadSources]
  cases h with
  | @unreadable cause h =>
      have hread : c.readSource files s =
          .error (.unreadableDataset s.id (Path.join c.directory s.path) cause) := by
        rw [readSource, resolve, h]
        rfl
      rw [hread]
  | unparsed h hnone =>
      have hread : c.readSource files s = .error (.invalidDataset s.id Json.unreadable) := by
        rw [readSource, resolve, h]
        dsimp only [Except.mapError, bind, Except.bind]
        rw [hnone]
        rfl
      rw [hread]
  | refused h hrefused =>
      rw [readSource_eq_ok_iff.mpr h]
      dsimp only
      rw [Registry.result_addJson_of_fresh_error hrefused]

theorem loadSources_of_yields {r : Registry} {s : Source} {d : Dataset}
    (h : s.Yields files c.directory now d) (habsent : s.id ∉ r.ids) (rest : List Source) :
    (c.loadSources files now r (s :: rest)).result =
        (c.loadSources files now (r.having d) rest).result ∧
      (c.loadSources files now r (s :: rest)).registry =
        (c.loadSources files now (r.having d) rest).registry := by
  obtain ⟨hfile, haccepted, hread⟩ := h
  rw [loadSources, readSource_eq_ok_iff.mpr hfile]
  dsimp only
  rw [Registry.addJson_of_fresh_ok habsent haccepted hread]
  exact ⟨rfl, rfl⟩

theorem yields_or_fails (files : Files) (directory now : String) (s : Source) :
    (∃ d, s.Yields files directory now d) ∨ ∃ fault, s.Fails files directory now fault := by
  cases htext : files.text (Path.join directory s.path) with
  | error => exact .inr ⟨_, .unreadable htext⟩
  | ok text =>
      cases hread : Json.read? text with
      | none => exact .inr ⟨_, .unparsed htext hread⟩
      | some payload =>
          have hfile : s.Holds files directory payload := ⟨text, htext, hread⟩
          have hlawful :=
            (Registry.fresh Answer.standardLimit).addJson_lawful now s.id s.kind payload
          cases hadd :
            ((Registry.fresh Answer.standardLimit).addJson now s.id s.kind payload).result with
          | error => exact .inr ⟨_, .refused hfile hadd⟩
          | ok ids =>
              obtain ⟨records, hrecords, _⟩ := hlawful.succeeds.mp ⟨ids, hadd⟩
              exact .inl ⟨_, .intro hfile hadd hrecords⟩

inductive FirstFailure (files : Files) (directory now : String) (sources : List Source) :
    StartFault → Prop
  | intro {before after : List Source} {s : Source} {fault : StartFault}
      (hsources : sources = before ++ s :: after)
      (hbefore : ∀ t ∈ before, ∃ d, t.Yields files directory now d)
      (h : s.Fails files directory now fault) (hreported : s.Reported fault) :
      FirstFailure files directory now sources fault

theorem FirstFailure.not_all_yield {directory : String} {sources : List Source}
    {fault : StartFault} (h : FirstFailure files directory now sources fault) :
    ¬∀ s ∈ sources, ∃ d, s.Yields files directory now d := by
  obtain ⟨rfl, _, hfails, _⟩ := h
  intro hall
  obtain ⟨d, hd⟩ := hall _ (List.mem_append_right _ List.mem_cons_self)
  exact hfails.not_yields hd

theorem loadSources_cases {r : Registry} {done sources : List Source}
    (hr : r.Serves files c.directory now done)
    (hdistinct : ((done ++ sources).map Source.id).Nodup) :
    (∀ s ∈ sources, ∃ d, s.Yields files c.directory now d) ∧
        (c.loadSources files now r sources).result = .ok () ∧
        (c.loadSources files now r sources).registry.Serves files c.directory now
          (done ++ sources) ∨
      ∃ fault, FirstFailure files c.directory now sources fault ∧
        (c.loadSources files now r sources).result = .error fault := by
  induction sources generalizing r done with
  | nil =>
      rw [List.append_nil]
      exact .inl ⟨nofun, rfl, hr⟩
  | cons s rest ih =>
      rcases yields_or_fails files c.directory now s with ⟨d, hs⟩ | ⟨fault, hs⟩
      · have hid : s.id ∉ done.map Source.id := by
          rw [List.map_append, List.nodup_append] at hdistinct
          exact fun hmem => hdistinct.2.2 s.id hmem s.id List.mem_cons_self rfl
        obtain ⟨hresult, hregistry⟩ := loadSources_of_yields hs (hr.not_mem_ids hid) rest
        rw [List.append_cons] at hdistinct
        rw [hresult, hregistry, List.append_cons, List.forall_mem_cons]
        refine (ih (hr.having hid hs) hdistinct).imp ?_ ?_
        · exact fun ⟨hrest, hok⟩ => ⟨⟨⟨d, hs⟩, hrest⟩, hok⟩
        · rintro ⟨fault, ⟨hsources, hbefore, hfails, hreported⟩, herror⟩
          refine ⟨fault, ?_, herror⟩
          exact .intro (congrArg (s :: ·) hsources) (List.forall_mem_cons.mpr ⟨⟨d, hs⟩, hbefore⟩)
            hfails hreported
      · refine .inr ⟨fault, ?_, loadSources_of_fails hs rest⟩
        exact .intro (List.nil_append _).symm (fun _ ht => (List.not_mem_nil ht).elim) hs
          hs.reported

end Config

structure Started.Faithful (files : Files) (now path : String) (s : Started) : Prop where
  config : s.config.At files path
  serves : s.registry.Serves files (Path.parent path) now s.config.sources
  order : ∀ sources, sources.Perm s.config.sources → ∃ log,
    s.config.loadSources files now (Registry.fresh Answer.standardLimit) sources =
      ⟨s.registry, .ok (), log⟩

inductive NotStarted (files : Files) (now path : String) : StartFault → Prop
  | config {fault : StartFault} (h : ∀ c : Config, ¬c.At files path)
      (hcode : fault.code = "CAMPUSQL_CLI_CONFIG_ERROR") : NotStarted files now path fault
  | source {c : Config} {fault : StartFault} (hc : c.At files path)
      (h : Config.FirstFailure files (Path.parent path) now c.sources fault) :
      NotStarted files now path fault

theorem Config.loadSources_fresh {files : Files} {c : Config} {sources : List Source} (now : String)
    (hdistinct : (sources.map Source.id).Nodup) :
    (∀ s ∈ sources, ∃ d, s.Yields files c.directory now d) ∧
        (∃ r log, c.loadSources files now (Registry.fresh Answer.standardLimit) sources =
          ⟨r, .ok (), log⟩ ∧ r.Serves files c.directory now sources) ∨
      ∃ fault, FirstFailure files c.directory now sources fault ∧
        (c.loadSources files now (Registry.fresh Answer.standardLimit) sources).result =
          .error fault := by
  refine (loadSources_cases .fresh hdistinct).imp_left ?_
  rintro ⟨hall, hresult, hserves⟩
  refine ⟨hall, _, (c.loadSources files now (.fresh Answer.standardLimit) sources).log, ?_, hserves⟩
  rw [← hresult]

theorem start_of_at {files : Files} {path : String} {c : Config} (now : String)
    (h : c.At files path) :
    (∀ s ∈ c.sources, ∃ d, s.Yields files (Path.parent path) now d) ∧
        (∃ s, (start files now path).1 = .ok s ∧ s.Faithful files now path) ∨
      ∃ fault, Config.FirstFailure files (Path.parent path) now c.sources fault ∧
        (start files now path).1 = .error fault := by
  rw [start, Config.load_eq_ok_iff.mpr h, ← h.directory]
  dsimp only
  rcases Config.loadSources_fresh now h.distinct with ⟨hall, r, log, hload, hserves⟩ | hfails
  · rw [hload]
    refine .inl ⟨hall, ⟨c, r⟩, rfl, h, h.directory ▸ hserves, ?_⟩
    intro sources hperm
    have hdistinct := (hperm.map Source.id).nodup_iff.mpr h.distinct
    rcases Config.loadSources_fresh now hdistinct with ⟨_, r', log', hload', hserves'⟩ | hfails
    · cases hserves.unique (hserves'.perm hperm.symm)
      exact ⟨log', hload'⟩
    · obtain ⟨fault, hfirst, _⟩ := hfails
      exact (hfirst.not_all_yield fun s hs => hall s (hperm.mem_iff.mp hs)).elim
  · obtain ⟨fault, hfirst, hresult⟩ := hfails
    refine .inr ⟨fault, hfirst, ?_⟩
    rw [hresult]
    rfl

theorem start_of_not_at {files : Files} {path : String} (now : String)
    (h : ∀ c : Config, ¬c.At files path) :
    ∃ fault, (start files now path).1 = .error fault ∧ NotStarted files now path fault := by
  cases hload : Config.load files path with
  | ok c => exact (h c (Config.load_eq_ok_iff.mp hload)).elim
  | error fault =>
      refine ⟨fault, ?_, .config h (Config.code_of_load hload)⟩
      rw [start, hload]

theorem start_all_or_nothing (files : Files) (now path : String) :
    ((∃ s, (start files now path).1 = .ok s) ↔ ∃ c : Config, c.At files path ∧
      ∀ s ∈ c.sources, ∃ d, s.Yields files (Path.parent path) now d) ∧
    (∀ s, (start files now path).1 = .ok s → s.Faithful files now path) ∧
    ∀ fault, (start files now path).1 = .error fault → NotStarted files now path fault := by
  by_cases hat : ∃ c : Config, c.At files path
  · obtain ⟨c, hc⟩ := hat
    rcases start_of_at now hc with ⟨hall, s, hs, hfaithful⟩ | ⟨fault, hfirst, herror⟩
    · refine ⟨iff_of_true ⟨s, hs⟩ ⟨c, hc, hall⟩, fun other hother => ?_, fun fault hfault => ?_⟩
      · cases hs.symm.trans hother
        exact hfaithful
      · cases hs.symm.trans hfault
    · refine ⟨iff_of_false ?_ ?_, fun s hs => ?_, fun other hother => ?_⟩
      · exact fun ⟨s, hs⟩ => nomatch herror.symm.trans hs
      · rintro ⟨other, hother, hall⟩
        cases hc.unique hother
        exact hfirst.not_all_yield hall
      · cases herror.symm.trans hs
      · cases herror.symm.trans hother
        exact .source hc hfirst
  · have hnone (c : Config) : ¬c.At files path := fun hc => hat ⟨c, hc⟩
    obtain ⟨fault, herror, hnot⟩ := start_of_not_at now hnone
    refine ⟨iff_of_false ?_ fun ⟨c, hc, _⟩ => hnone c hc, fun s hs => ?_, fun other hother => ?_⟩
    · exact fun ⟨s, hs⟩ => nomatch herror.symm.trans hs
    · cases herror.symm.trans hs
    · cases herror.symm.trans hother
      exact hnot

end Registrar
