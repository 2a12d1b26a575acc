import Registrar.Proofs.Catalog.Record
import Registrar.Proofs.Query.Binding
import Registrar.Proofs.Query.Reading

namespace Registrar

namespace Query

theorem mem_keys_iff {q : Query} {k : Key} :
    k ∈ q.keys ↔ (∃ f ∈ q.filter, k ∈ f.keys) ∨ .key k ∈ q.columns ∨
      ∃ g ∈ q.grouping, k ∈ g.keys ∨ ∃ r ∈ g.rules, r.key = k := by
  obtain ⟨filter, columns, order, grouping⟩ := q
  have hcolumn : k ∈ columns.filterMap Column.key? ↔ Column.key k ∈ columns := by
    rw [List.mem_filterMap]
    constructor
    · rintro ⟨c, hc, hk⟩
      cases c with
      | key l => cases hk; exact hc
      | apply => cases hk
    · exact fun hc => ⟨_, hc, rfl⟩
  cases filter <;> cases grouping <;> simp [keys, hcolumn]

theorem Legal.keys_ne_nil {q : Query} (h : q.Legal) : q.keys ≠ [] := by
  have hkey : ∃ k, k ∈ q.keys := by
    cases hg : q.grouping with
    | none =>
        obtain ⟨c, hc⟩ := List.exists_mem_of_ne_nil _ h.nonempty
        have hlegal := h.columns c hc
        cases c with
        | key k => exact ⟨k, mem_keys_iff.mpr (.inr (.inl hc))⟩
        | apply =>
            obtain ⟨_, _, hsome, _⟩ := hlegal
            rw [hg] at hsome
            cases hsome
    | some g =>
        obtain ⟨k, hk⟩ := List.exists_mem_of_ne_nil _ (h.grouping g hg).nonempty
        exact ⟨k, mem_keys_iff.mpr (.inr (.inr ⟨g, hg, .inl hk⟩))⟩
  obtain ⟨k, hk⟩ := hkey
  exact List.ne_nil_of_mem hk

theorem Typed.classify_ne_unknown {kind : Kind} {q : Query} (h : q.Typed kind) {k : Key}
    (hk : k ∈ q.keys) : kind.classify k.field ≠ .unknown := by
  rcases mem_keys_iff.mp hk with ⟨f, hf, hk⟩ | hc | ⟨g, hg, hk | ⟨r, hr, rfl⟩⟩
  · exact Filter.classify_ne_unknown kind f (h.filter f hf) k hk
  · exact h.columns _ hc
  · exact (h.grouping g hg).keys k hk
  · exact ((h.grouping g hg).rules r hr).1

end Query

namespace Bound

structure Accepted (b : Bound) : Prop where
  legal : b.query.Legal
  typed : b.query.Typed b.kind
  dataset : ∀ k ∈ b.query.keys, k.dataset = b.dataset

theorem ofJson_eq_ok_iff (known : Known) (value : Json) (b : Bound) :
    ofJson known value = .ok b ↔
      b.Accepted ∧ b.query.Written value ∧ Keyed.find? known b.dataset = some b.kind := by
  simp only [ofJson, Except.bind_eq_ok_iff, Except.pure_eq_ok_iff, Query.ofJson_eq_ok_iff]
  constructor
  · rintro ⟨q, ⟨hlegal, hwritten⟩, ⟨id, kind⟩, hbind, _, hcheck, rfl⟩
    obtain ⟨⟨_, hdataset⟩, hknown⟩ := (Query.bind_eq_ok_iff known q id kind).mp hbind
    exact ⟨⟨hlegal, (Query.check_eq_ok_iff kind q).mp hcheck, hdataset⟩, hwritten, hknown⟩
  · rintro ⟨⟨hlegal, htyped, hdataset⟩, hwritten, hknown⟩
    refine ⟨b.query, ⟨hlegal, hwritten⟩, (b.dataset, b.kind), ?_, (), ?_, rfl⟩
    · exact (Query.bind_eq_ok_iff known _ _ _).mpr ⟨⟨hlegal.keys_ne_nil, hdataset⟩, hknown⟩
    · exact (Query.check_eq_ok_iff _ _).mpr htyped

theorem accepted_of_ofJson {known : Known} {value : Json} {b : Bound}
    (h : ofJson known value = .ok b) : b.Accepted :=
  ((ofJson_eq_ok_iff known value b).mp h).1

variable {known known' : Known} {value : Json} {b b' : Bound}

theorem ofJson_of_find? (h : ofJson known value = .ok b)
    (hfind : Keyed.find? known' b.dataset = some b.kind) : ofJson known' value = .ok b := by
  obtain ⟨haccepted, hwritten, _⟩ := (ofJson_eq_ok_iff known value b).mp h
  exact (ofJson_eq_ok_iff known' value b).mpr ⟨haccepted, hwritten, hfind⟩

theorem ofJson_unique (h : ofJson known value = .ok b) (h' : ofJson known' value = .ok b') :
    b = b' := by
  obtain ⟨⟨hlegal, htyped, hid⟩, hwritten, _⟩ := (ofJson_eq_ok_iff known value b).mp h
  obtain ⟨⟨hlegal', htyped', hid'⟩, hwritten', _⟩ := (ofJson_eq_ok_iff known' value b').mp h'
  have hquery : b.query = b'.query := by
    have hread := Query.ofJson_eq_ok_iff.mpr ⟨hlegal, hwritten⟩
    have hread' := Query.ofJson_eq_ok_iff.mpr ⟨hlegal', hwritten'⟩
    exact Except.ok.inj (hread.symm.trans hread')
  obtain ⟨k, hk⟩ := List.exists_mem_of_ne_nil _ hlegal.keys_ne_nil
  have hk' : k ∈ b'.query.keys := hquery ▸ hk
  have hdataset : b.dataset = b'.dataset := (hid k hk).symm.trans (hid' k hk')
  have hkind : b.kind = b'.kind :=
    Kind.eq_of_classify (htyped.classify_ne_unknown hk) (htyped'.classify_ne_unknown hk')
  obtain ⟨_, _, _⟩ := b
  obtain ⟨_, _, _⟩ := b'
  cases hquery
  cases hdataset
  cases hkind
  rfl

end Bound

end Registrar
