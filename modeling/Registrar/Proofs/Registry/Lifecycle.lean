import Registrar.Proofs.Registry.Run

namespace Registrar

namespace Registry

structure Keeps (r s : Registry) : Prop where
  datasets : s.datasets = r.datasets
  added : s.counters.datasetsAdded = r.counters.datasetsAdded
  removed : s.counters.datasetsRemoved = r.counters.datasetsRemoved

structure Gains (r : Registry) (d : Dataset) (s : Registry) : Prop where
  fresh : d.id ∉ r.ids
  there : Keyed.find? s.datasets d.id = some d
  others : ∀ id, id ≠ d.id → Keyed.find? s.datasets id = Keyed.find? r.datasets id
  added : s.counters.datasetsAdded = r.counters.datasetsAdded + 1
  removed : s.counters.datasetsRemoved = r.counters.datasetsRemoved

structure Loses (r : Registry) (id : String) (s : Registry) : Prop where
  there : id ∈ r.ids
  gone : id ∉ s.ids
  others : ∀ other, other ≠ id → Keyed.find? s.datasets other = Keyed.find? r.datasets other
  added : s.counters.datasetsAdded = r.counters.datasetsAdded
  removed : s.counters.datasetsRemoved = r.counters.datasetsRemoved + 1

structure Admits (r : Registry) (d : Dataset) : Prop where
  sound : d.Sound
  fresh : d.id ∉ r.ids

inductive Refuses (r : Registry) (d : Dataset) : DatasetFault → Prop
  | faulty {fault : DatasetFault} (h : d.Faulty fault) : Refuses r d fault
  | duplicate (hsound : d.Sound) (h : d.id ∈ r.ids) : Refuses r d (.duplicate d.id)

inductive RefusesJson (r : Registry) (now id : String) (kind : Kind) (payload : Json) :
    DatasetFault → Prop
  | unreadable {fault : DatasetFault} (h : Dataset.Unreadable kind payload fault) :
      RefusesJson r now id kind payload fault
  | read {records : List Record} {fault : DatasetFault} (hread : Dataset.Read kind payload records)
      (h : r.Refuses ⟨id, kind, records, now⟩ fault) : RefusesJson r now id kind payload fault

inductive RefusesRemoval (r : Registry) (id : String) : DatasetFault → Prop
  | id (h : ¬Dataset.isId id) : RefusesRemoval r id (.invalidId id)
  | absent (hid : Dataset.isId id) (h : id ∉ r.ids) : RefusesRemoval r id (.notFound id)

end Registry

structure Outcome.Lawful {α : Type} (o : Outcome (Except DatasetFault α)) (r : Registry)
    (accepted : Prop) (refused : DatasetFault → Prop) (change : α → Registry → Prop) : Prop where
  succeeds : (∃ a, o.result = .ok a) ↔ accepted
  fails : ∀ fault, o.result = .error fault ↔ refused fault
  keeps : ∀ fault, o.result = .error fault → r.Keeps o.registry
  changes : ∀ a, o.result = .ok a → change a o.registry

namespace Outcome.Lawful

variable {α : Type} {o : Outcome (Except DatasetFault α)} {r : Registry} {accepted : Prop}
  {refused : DatasetFault → Prop} {change : α → Registry → Prop}

theorem of_ok {a : α} (h : o.result = .ok a) (haccepted : accepted)
    (hrefused : ∀ fault, ¬refused fault) (hchange : change a o.registry) :
    o.Lawful r accepted refused change := by
  have hfails (fault : DatasetFault) : o.result ≠ .error fault :=
    fun hfault => nomatch h.symm.trans hfault
  refine ⟨⟨fun _ => haccepted, fun _ => ⟨a, h⟩⟩, fun fault => ?_, ?_, ?_⟩
  · exact iff_of_false (hfails fault) (hrefused fault)
  · exact fun fault hfault => (hfails fault hfault).elim
  · intro b hb
    cases h.symm.trans hb
    exact hchange

theorem of_error {fault : DatasetFault} (h : o.result = .error fault) (haccepted : ¬accepted)
    (hrefused : ∀ other, refused other ↔ fault = other) (hkeeps : o.registry = r) :
    o.Lawful r accepted refused change := by
  have hnone (a : α) : o.result ≠ .ok a := fun ha => nomatch h.symm.trans ha
  refine ⟨iff_of_false (fun ⟨a, ha⟩ => hnone a ha) haccepted, ?_, ?_, ?_⟩
  · intro other
    rw [hrefused, h, Except.error.injEq]
  · rw [hkeeps]
    exact fun _ _ => ⟨rfl, rfl, rfl⟩
  · exact fun a ha => (hnone a ha).elim

theorem congr {accepted' : Prop} {refused' : DatasetFault → Prop} {change' : α → Registry → Prop}
    (h : o.Lawful r accepted refused change) (haccepted : accepted ↔ accepted')
    (hrefused : ∀ fault, refused fault ↔ refused' fault)
    (hchange : ∀ a s, change a s → change' a s) : o.Lawful r accepted' refused' change' :=
  ⟨h.succeeds.trans haccepted, fun fault => (h.fails fault).trans (hrefused fault), h.keeps,
    fun a ha => hchange a _ (h.changes a ha)⟩

end Outcome.Lawful

namespace Registry

theorem not_mem_ids_iff {r : Registry} {id : String} :
    id ∉ r.ids ↔ Keyed.find? r.datasets id = none := by
  rw [ids, ← Keyed.find?_isSome_iff, Bool.not_eq_true, Option.isSome_eq_false_iff,
    Option.isNone_iff_eq_none]

theorem tryAdd_eq_error_iff {r : Registry} {d : Dataset} {fault : DatasetFault} :
    r.tryAdd d = .error fault ↔ r.Refuses d fault := by
  rw [tryAdd, Except.bind_unit_eq_error_iff, Dataset.check_eq_error_iff, Dataset.check_eq_ok_iff]
  constructor
  · rintro (h | ⟨hsound, h⟩)
    · exact .faulty h
    · split at h
      · next hthere =>
        cases h
        exact .duplicate hsound ((Keyed.find?_isSome_iff _ _).mp hthere)
      · cases h
  · rintro (h | ⟨hsound, h⟩)
    · exact .inl h
    · have hthere : Keyed.contains r.datasets d.id := (Keyed.find?_isSome_iff _ _).mpr h
      refine .inr ⟨hsound, ?_⟩
      dsimp only
      rw [if_pos hthere]
      rfl

theorem add_of_ok {r s : Registry} {d : Dataset} (h : r.tryAdd d = .ok s) :
    r.add d = ⟨s, .ok s.ids, [addedEntry d]⟩ := by
  rw [add, h]

theorem add_of_error {r : Registry} {d : Dataset} {fault : DatasetFault}
    (h : r.tryAdd d = .error fault) :
    r.add d = ⟨r, .error fault, [rejectedEntry d.id fault]⟩ := by
  rw [add, h]

theorem admits_iff {r : Registry} {d : Dataset} : r.Admits d ↔ ∃ s, r.tryAdd d = .ok s := by
  constructor
  · exact fun ⟨hsound, hfresh⟩ => ⟨_, tryAdd_eq_ok_iff.mpr ⟨hsound, not_mem_ids_iff.mp hfresh, rfl⟩⟩
  · rintro ⟨s, h⟩
    obtain ⟨hsound, hfresh, _⟩ := tryAdd_eq_ok_iff.mp h
    exact ⟨hsound, not_mem_ids_iff.mpr hfresh⟩

theorem gains_of_tryAdd {r s : Registry} {d : Dataset} (h : r.tryAdd d = .ok s) : r.Gains d s := by
  obtain ⟨_, hfresh, rfl⟩ := tryAdd_eq_ok_iff.mp h
  constructor
  case fresh => exact not_mem_ids_iff.mpr hfresh
  case there => exact Keyed.find?_insert_self ..
  case others => exact fun id hne => Keyed.find?_insert_of_ne _ _ hne.symm
  case added => rfl
  case removed => rfl

theorem add_lawful (r : Registry) (d : Dataset) :
    (r.add d).Lawful r (r.Admits d) (r.Refuses d) fun ids s => ids = s.ids ∧ r.Gains d s := by
  cases h : r.tryAdd d with
  | ok s =>
      rw [add_of_ok h]
      refine .of_ok rfl (admits_iff.mpr ⟨s, h⟩) (fun fault hfault => ?_) ⟨rfl, gains_of_tryAdd h⟩
      cases h.symm.trans (tryAdd_eq_error_iff.mpr hfault)
  | error fault =>
      rw [add_of_error h]
      refine .of_error rfl (fun hadmits => ?_) (fun other => ?_) rfl
      · obtain ⟨s, hs⟩ := admits_iff.mp hadmits
        cases h.symm.trans hs
      · rw [← tryAdd_eq_error_iff, h, Except.error.injEq]

theorem addJson_lawful (r : Registry) (now id : String) (kind : Kind) (payload : Json) :
    (r.addJson now id kind payload).Lawful r
      (∃ records, Dataset.Read kind payload records ∧ r.Admits ⟨id, kind, records, now⟩)
      (r.RefusesJson now id kind payload)
      fun ids s => ids = s.ids ∧
        ∃ records, Dataset.Read kind payload records ∧ r.Gains ⟨id, kind, records, now⟩ s := by
  cases h : Dataset.parseRecords kind payload with
  | ok records =>
      have hread := Dataset.parseRecords_eq_ok_iff.mp h
      have honly {other : List Record} (hother : Dataset.Read kind payload other) :
          records = other :=
        Except.ok.inj (h.symm.trans (Dataset.parseRecords_eq_ok_iff.mpr hother))
      rw [addJson, h]
      refine (r.add_lawful ⟨id, kind, records, now⟩).congr ?_ (fun fault => ?_) ?_
      · constructor
        · exact fun hadmits => ⟨records, hread, hadmits⟩
        · rintro ⟨other, hother, hadmits⟩
          exact honly hother ▸ hadmits
      · constructor
        · exact .read hread
        · rintro (hunreadable | ⟨hother, hrefuses⟩)
          · cases h.symm.trans (Dataset.parseRecords_eq_error_iff.mpr hunreadable)
          · exact honly hother ▸ hrefuses
      · rintro ids s ⟨hids, hgains⟩
        exact ⟨hids, records, hread, hgains⟩
  | error fault =>
      have hunread (records : List Record) : ¬Dataset.Read kind payload records := by
        intro hread
        cases h.symm.trans (Dataset.parseRecords_eq_ok_iff.mpr hread)
      rw [addJson, h]
      refine .of_error rfl ?_ (fun other => ?_) rfl
      · rintro ⟨records, hread, _⟩
        exact hunread records hread
      · have hother := @Dataset.parseRecords_eq_error_iff kind payload other
        rw [h, Except.error.injEq] at hother
        rw [hother]
        constructor
        · rintro (hunreadable | ⟨hread, _⟩)
          · exact hunreadable
          · exact (hunread _ hread).elim
        · exact .unreadable

theorem remove_lawful (r : Registry) (id : String) :
    (r.remove id).Lawful r (Dataset.isId id ∧ id ∈ r.ids) (r.RefusesRemoval id)
      fun removed s => removed = id ∧ r.Loses id s := by
  rw [remove]
  split
  · next fault h =>
    obtain ⟨hid, rfl⟩ := Dataset.checkId_eq_error_iff.mp h
    refine .of_error rfl (fun haccepted => hid haccepted.1) (fun other => ?_) rfl
    constructor
    · rintro (_ | ⟨hid', _⟩)
      · rfl
      · exact (hid hid').elim
    · rintro rfl
      exact .id hid
  · next h =>
    have hid := Dataset.checkId_eq_ok_iff.mp h
    split
    · next hnone =>
      have habsent := not_mem_ids_iff.mpr hnone
      refine .of_error rfl (fun haccepted => habsent haccepted.2) (fun other => ?_) rfl
      constructor
      · rintro (hid' | _)
        · exact (hid' hid).elim
        · rfl
      · rintro rfl
        exact .absent hid habsent
    · next d hfind =>
      have hthere : id ∈ r.ids := (Keyed.find?_isSome_iff _ _).mp (by rw [hfind]; rfl)
      refine .of_ok rfl ⟨hid, hthere⟩ ?_ ⟨rfl, ?_⟩
      · rintro fault (hid' | ⟨_, habsent⟩)
        · exact hid' hid
        · exact habsent hthere
      · constructor
        case there => exact hthere
        case gone => exact not_mem_ids_iff.mpr (Keyed.find?_erase_self ..)
        case others => exact fun other hne => Keyed.find?_erase_of_ne _ hne.symm
        case added => rfl
        case removed => rfl

theorem keeps_query (r : Registry) (id : String) (value : Json) :
    r.Keeps (r.query id value).registry := by
  obtain ⟨c, hadded, hremoved, h⟩ := r.query_cases id value
  rw [h]
  exact ⟨rfl, hadded, hremoved⟩

theorem operations_lawful (r : Registry) :
    (∀ d, (r.add d).Lawful r (r.Admits d) (r.Refuses d) fun ids s => ids = s.ids ∧ r.Gains d s) ∧
      (∀ now id kind payload, (r.addJson now id kind payload).Lawful r
        (∃ records, Dataset.Read kind payload records ∧ r.Admits ⟨id, kind, records, now⟩)
        (r.RefusesJson now id kind payload)
        fun ids s => ids = s.ids ∧
          ∃ records, Dataset.Read kind payload records ∧ r.Gains ⟨id, kind, records, now⟩ s) ∧
      (∀ id, (r.remove id).Lawful r (Dataset.isId id ∧ id ∈ r.ids) (r.RefusesRemoval id)
        fun removed s => removed = id ∧ r.Loses id s) ∧
      (∀ id value, r.Keeps (r.query id value).registry) ∧ r.Keeps (r.next .list) :=
  ⟨r.add_lawful, r.addJson_lawful, r.remove_lawful, r.keeps_query, ⟨rfl, rfl, rfl⟩⟩

end Registry

end Registrar
