import Registrar.Proofs.Registry.Dataset
import Registrar.Registry.Basic

namespace Registrar

inductive Call where
  | add (d : Dataset)
  | addJson (now id : String) (kind : Kind) (payload : Json)
  | remove (id : String)
  | list
  | query (id : String) (value : Json)

inductive Call.Brings : Call → Dataset → Prop
  | add (d : Dataset) : (Call.add d).Brings d
  | addJson {now id : String} {kind : Kind} {payload : Json} {records : List Record}
      (h : Dataset.parseRecords kind payload = .ok records) :
      (Call.addJson now id kind payload).Brings ⟨id, kind, records, now⟩

namespace Registry

def next (r : Registry) : Call → Registry
  | .add d => (r.add d).registry
  | .addJson now id kind payload => (r.addJson now id kind payload).registry
  | .remove id => (r.remove id).registry
  | .list => r
  | .query id value => (r.query id value).registry

def after (r : Registry) (calls : List Call) : Registry := calls.foldl next r

inductive Reachable : Registry → Prop
  | fresh (limit : Nat) : Reachable (.fresh limit)
  | next {r : Registry} (h : Reachable r) (c : Call) : Reachable (r.next c)

structure Sound (r : Registry) : Prop where
  ascending : Keyed.Ascending r.datasets
  keyed : ∀ e ∈ r.datasets, e.2.id = e.1
  sound : ∀ e ∈ r.datasets, e.2.Sound

theorem tryAdd_eq_ok_iff {r s : Registry} {d : Dataset} :
    r.tryAdd d = .ok s ↔ d.Sound ∧ Keyed.find? r.datasets d.id = none ∧
      s = { r with datasets := Keyed.insert r.datasets d.id d, counters := r.counters.added } := by
  rw [tryAdd, Except.bind_unit_eq_ok_iff, Dataset.check_eq_ok_iff]
  refine and_congr_right fun _ => ?_
  cases hfind : Keyed.find? r.datasets d.id with
  | none =>
      rw [Keyed.contains, hfind]
      simp only [Option.isSome_none, Bool.false_eq_true, if_false, Except.pure_eq_ok_iff, true_and]
      exact eq_comm
  | some found =>
      rw [Keyed.contains, hfind]
      exact ⟨fun h => (Except.throw_eq_ok_iff.mp h).elim, fun h => absurd h.1 (by simp)⟩

theorem add_cases (r : Registry) (d : Dataset) :
    (r.add d).registry = r ∨ d.Sound ∧ Keyed.find? r.datasets d.id = none ∧
      (r.add d).registry =
        { r with datasets := Keyed.insert r.datasets d.id d, counters := r.counters.added } := by
  rw [add]
  cases h : r.tryAdd d with
  | ok s => exact .inr (tryAdd_eq_ok_iff.mp h)
  | error => exact .inl rfl

theorem addJson_cases (r : Registry) (now id : String) (kind : Kind) (payload : Json) :
    (r.addJson now id kind payload).registry = r ∨
      ∃ records, Dataset.parseRecords kind payload = .ok records ∧
        (r.addJson now id kind payload).registry = (r.add ⟨id, kind, records, now⟩).registry := by
  rw [addJson]
  cases Dataset.parseRecords kind payload with
  | ok records => exact .inr ⟨records, rfl, rfl⟩
  | error => exact .inl rfl

theorem remove_cases (r : Registry) (id : String) :
    (r.remove id).registry = r ∨ (r.remove id).registry =
      { r with datasets := Keyed.erase r.datasets id, counters := r.counters.removed } := by
  rw [remove]
  cases Dataset.checkId id with
  | error => exact .inl rfl
  | ok =>
      cases Keyed.find? r.datasets id with
      | none => exact .inl rfl
      | some => exact .inr rfl

theorem query_cases (r : Registry) (id : String) (value : Json) :
    ∃ c : Counters, c.datasetsAdded = r.counters.datasetsAdded ∧
      c.datasetsRemoved = r.counters.datasetsRemoved ∧
      (r.query id value).registry = { r with counters := c } := by
  rw [query]
  split
  · exact ⟨r.counters.executed _, rfl, rfl, rfl⟩
  · next fault _ =>
    refine ⟨countFault r.counters fault, ?_, ?_, rfl⟩ <;> cases fault <;> rfl

inductive Effect (r : Registry) (c : Call) (s : Registry) : Prop
  | none (h : s.datasets = r.datasets)
  | insert (d : Dataset) (hd : c.Brings d) (hsound : d.Sound)
      (hfresh : Keyed.find? r.datasets d.id = none)
      (h : s.datasets = Keyed.insert r.datasets d.id d)
  | erase (id : String) (hc : c = .remove id) (h : s.datasets = Keyed.erase r.datasets id)

theorem effect_of_brings {r : Registry} {c : Call} {d : Dataset} (hd : c.Brings d)
    (h : r.next c = (r.add d).registry) : Effect r c (r.next c) := by
  rcases r.add_cases d with hadd | ⟨hsound, hfresh, hadd⟩
  · exact .none (by rw [h, hadd])
  · exact .insert d hd hsound hfresh (by rw [h, hadd])

theorem effect_next (r : Registry) (c : Call) : Effect r c (r.next c) := by
  cases c with
  | add d => exact effect_of_brings (.add d) rfl
  | addJson now id kind payload =>
      rcases r.addJson_cases now id kind payload with h | ⟨records, hread, h⟩
      · exact .none (congrArg datasets h)
      · exact effect_of_brings (.addJson hread) h
  | remove id =>
      rcases r.remove_cases id with h | h
      · exact .none (congrArg datasets h)
      · exact .erase id rfl (congrArg datasets h)
  | list => exact .none rfl
  | query id value =>
      obtain ⟨_, _, _, h⟩ := r.query_cases id value
      exact .none (by rw [next, h])

theorem limit_add (r : Registry) (d : Dataset) : (r.add d).registry.limit = r.limit := by
  rcases r.add_cases d with h | ⟨_, _, h⟩ <;> rw [h]

theorem limit_next (r : Registry) (c : Call) : (r.next c).limit = r.limit := by
  cases c with
  | add d => exact r.limit_add d
  | addJson now id kind payload =>
      rcases r.addJson_cases now id kind payload with h | ⟨records, _, h⟩
      · exact congrArg limit h
      · exact (congrArg limit h).trans (r.limit_add _)
  | remove id => rcases r.remove_cases id with h | h <;> rw [next, h]
  | list => rfl
  | query id value =>
      obtain ⟨_, _, _, h⟩ := r.query_cases id value
      rw [next, h]

theorem Sound.next {r : Registry} (h : r.Sound) (c : Call) : (r.next c).Sound := by
  obtain ⟨hascending, hkeyed, hsound⟩ := h
  rcases r.effect_next c with heq | ⟨d, _, hd, _, heq⟩ | ⟨id, _, heq⟩
  · exact ⟨heq ▸ hascending, heq ▸ hkeyed, heq ▸ hsound⟩
  · constructor
    case ascending => exact heq ▸ Keyed.ascending_insert d.id d hascending
    case keyed =>
      intro e he
      rcases Keyed.mem_insert (heq ▸ he) with rfl | hold
      · rfl
      · exact hkeyed e hold
    case sound =>
      intro e he
      rcases Keyed.mem_insert (heq ▸ he) with rfl | hold
      · exact hd
      · exact hsound e hold
  · have hmem {e : String × Dataset} (he : e ∈ (r.next c).datasets) : e ∈ r.datasets :=
      List.mem_of_mem_filter (heq ▸ he)
    exact ⟨heq ▸ Keyed.ascending_erase id hascending, fun e he => hkeyed e (hmem he),
      fun e he => hsound e (hmem he)⟩

theorem Sound.after {r : Registry} (h : r.Sound) (calls : List Call) : (r.after calls).Sound := by
  induction calls generalizing r with
  | nil => exact h
  | cons c rest ih => exact ih (h.next c)

theorem Reachable.sound {r : Registry} (h : r.Reachable) : r.Sound := by
  induction h with
  | fresh limit => exact ⟨.nil, nofun, nofun⟩
  | next _ c ih => exact ih.next c

theorem Reachable.after {r : Registry} (h : r.Reachable) (calls : List Call) :
    (r.after calls).Reachable := by
  induction calls generalizing r with
  | nil => exact h
  | cons c rest ih => exact ih (h.next c)

theorem limit_after (r : Registry) (calls : List Call) : (r.after calls).limit = r.limit := by
  induction calls generalizing r with
  | nil => rfl
  | cons c rest ih => exact (ih (r.next c)).trans (r.limit_next c)

theorem mem_next {r : Registry} {c : Call} {e : String × Dataset}
    (he : e ∈ (r.next c).datasets) : e ∈ r.datasets ∨ c.Brings e.2 := by
  rcases r.effect_next c with heq | ⟨d, hd, _, _, heq⟩ | ⟨id, _, heq⟩
  · exact .inl (heq ▸ he)
  · rcases Keyed.mem_insert (heq ▸ he) with rfl | hold
    · exact .inr hd
    · exact .inl hold
  · exact .inl (List.mem_of_mem_filter (heq ▸ he))

theorem mem_after {r : Registry} {calls : List Call} {e : String × Dataset}
    (he : e ∈ (r.after calls).datasets) : e ∈ r.datasets ∨ ∃ c ∈ calls, c.Brings e.2 := by
  induction calls generalizing r with
  | nil => exact .inl he
  | cons c rest ih =>
      rcases ih he with hnext | ⟨later, hlater, hd⟩
      · exact (mem_next hnext).imp_right fun hd => ⟨c, List.mem_cons_self, hd⟩
      · exact .inr ⟨later, List.mem_cons_of_mem _ hlater, hd⟩

theorem find?_next {r : Registry} {id : String} {d : Dataset}
    (h : Keyed.find? r.datasets id = some d) {c : Call} (hc : c ≠ .remove id) :
    Keyed.find? (r.next c).datasets id = some d := by
  rcases r.effect_next c with heq | ⟨added, _, _, hfresh, heq⟩ | ⟨removed, hremoved, heq⟩
  · rw [heq, h]
  · have hne : added.id ≠ id := by
      rintro rfl
      cases hfresh.symm.trans h
    rw [heq, Keyed.find?_insert_of_ne _ _ hne, h]
  · have hne : removed ≠ id := by
      rintro rfl
      exact hc hremoved
    rw [heq, Keyed.find?_erase_of_ne _ hne, h]

theorem find?_after {r : Registry} {id : String} {d : Dataset}
    (h : Keyed.find? r.datasets id = some d) {calls : List Call}
    (hcalls : ∀ c ∈ calls, c ≠ .remove id) :
    Keyed.find? (r.after calls).datasets id = some d := by
  induction calls generalizing r with
  | nil => exact h
  | cons c rest ih =>
      obtain ⟨hc, hrest⟩ := List.forall_mem_cons.mp hcalls
      exact ih (find?_next h hc) hrest

theorem find?_known {r : Registry} (h : r.Sound) (id : String) :
    Keyed.find? r.known id = (Keyed.find? r.datasets id).map Dataset.kind := by
  have hknown : r.known = r.datasets.map fun e => (e.1, e.2.kind) :=
    List.map_congr_left fun e he => congrArg (·, e.2.kind) (h.keyed e he)
  rw [hknown, Keyed.find?_map]

end Registry

end Registrar
