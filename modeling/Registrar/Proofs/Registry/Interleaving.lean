import Registrar.Proofs.Answer.Evaluable
import Registrar.Proofs.Answer.Session
import Registrar.Proofs.Registry.Run

namespace Registrar

theorem Bound.accepted_of_fields {id : String} (hid : Dataset.isId id) {kind : Kind}
    {filter : Option Filter} {fields : List String} (hne : fields ≠ [])
    (hfields : ∀ field ∈ fields, field ∈ kind.fields) (htyped : ∀ f ∈ filter, f.Typed kind)
    (hkeys : ∀ f ∈ filter, ∀ k ∈ f.keys, k.dataset = id) :
    Accepted ⟨id, kind, ⟨filter, fields.map fun field => .key ⟨id, field⟩, none, none⟩⟩ := by
  have hkey : ∀ c ∈ fields.map fun field => Column.key ⟨id, field⟩,
      ∃ field ∈ kind.fields, c = .key ⟨id, field⟩ := by
    intro c hc
    obtain ⟨field, hfield, rfl⟩ := List.mem_map.mp hc
    exact ⟨field, hfields field hfield, rfl⟩
  constructor
  case legal =>
    refine ⟨fun hnil => hne (List.map_eq_nil_iff.mp hnil), fun c hc => ?_, nofun, nofun⟩
    obtain ⟨field, hfield, rfl⟩ := hkey c hc
    exact ⟨Dataset.key_proper hid hfield, nofun⟩
  case typed =>
    refine ⟨htyped, fun c hc => ?_, nofun⟩
    obtain ⟨field, hfield, rfl⟩ := hkey c hc
    exact (kind.classify_ne_unknown_iff field).mpr hfield
  case dataset =>
    intro k hk
    rcases Query.mem_keys_iff.mp hk with ⟨f, hf, hk⟩ | hcolumn | ⟨_, hgrouping, _⟩
    · exact hkeys f hf k hk
    · obtain ⟨field, _, heq⟩ := hkey _ hcolumn
      cases heq
      rfl
    · cases hgrouping

theorem Bound.Accepted.lacks_keys {b : Bound} (hb : b.Accepted) {other : Kind}
    (hne : other ≠ b.kind) {records : List Record} (hvalid : ∀ r ∈ records, r.Valid other) :
    ∀ row ∈ (Answer.rowsOf b records).1, ∀ k, .key k ∈ b.query.columns →
      row.get? k.text = none := by
  have habsent : ∀ r ∈ records, ∀ k ∈ b.query.keys, r.get? k.field = none := by
    intro r hr k hk
    refine (hvalid r hr).get?_eq_none ?_
    by_contra hknown
    exact hne (Kind.eq_of_classify hknown (hb.typed.classify_ne_unknown hk))
  intro row hrow k hk
  unfold Answer.rowsOf at hrow
  split at hrow
  · next g hg =>
    obtain ⟨grouped, hgrouped, rfl⟩ := List.mem_map.mp hrow
    obtain ⟨group, hgroup, rfl⟩ := List.mem_map.mp hgrouped
    obtain ⟨hnonempty, hmem⟩ := Grouping.mem_partition hgroup
    obtain ⟨first, rest, rfl⟩ := List.exists_cons_of_ne_nil hnonempty
    have hkeys : ∀ l ∈ g.keys, first.get? l.field = none := fun l hl =>
      habsent first (hmem first List.mem_cons_self) l
        (Query.mem_keys_iff.mpr (.inr (.inr ⟨g, hg, .inl hl⟩)))
    have hlacks : (g.row (first :: rest)).get? k.text = none :=
      Grouping.get?_row_of_none (hb.legal.grouping g hg) hkeys k
    exact Row.get?_foldl_push?_of_none (fun c _ hname => hname ▸ hlacks) .empty
  · obtain ⟨r, hr, rfl⟩ := List.mem_map.mp hrow
    rw [Row.ofRecord_eq_empty fun l hl => habsent r hr l (Query.mem_keys_iff.mpr (.inr (.inl hl)))]
    rfl

namespace Registry

def answer (r : Registry) (value : Json) : Except QueryFault Answer :=
  Answer.ofQuery r.limit r.known r.records? value

theorem query_result (r : Registry) (id : String) (value : Json) :
    (r.query id value).result = (r.answer value).map Answer.rows := by
  rw [query, answer]
  cases Answer.ofQuery r.limit r.known r.records? value <;> rfl

def answerAcross (r s : Registry) (value : Json) : Except QueryFault Answer :=
  Answer.ofQuery r.limit r.known s.records? value

def passed (r : Registry) : List Call → List Registry
  | [] => [r]
  | c :: rest => r :: (r.next c).passed rest

def KindsKept (r s : Registry) : Prop :=
  ∀ id d d', Keyed.find? r.datasets id = some d → Keyed.find? s.datasets id = some d' →
    d.kind = d'.kind

theorem after_mem_passed (r : Registry) (calls : List Call) : r.after calls ∈ r.passed calls := by
  induction calls generalizing r with
  | nil => exact List.mem_cons_self
  | cons c rest ih => exact List.mem_cons_of_mem _ (ih (r.next c))

theorem Sound.passed {r : Registry} (h : r.Sound) {calls : List Call} {s : Registry}
    (hs : s ∈ r.passed calls) : s.Sound := by
  induction calls generalizing r with
  | nil => exact List.mem_singleton.mp hs ▸ h
  | cons c rest ih =>
      rcases List.mem_cons.mp hs with rfl | hs
      · exact h
      · exact ih (h.next c) hs

theorem records?_eq_some_iff {r : Registry} {id : String} {rs : List Record} :
    r.records? id = some rs ↔ ∃ d, Keyed.find? r.datasets id = some d ∧ d.records = rs :=
  Option.map_eq_some_iff

theorem Sound.of_find? {r : Registry} (h : r.Sound) {id : String} {d : Dataset}
    (hd : Keyed.find? r.datasets id = some d) : d.Sound ∧ d.id = id := by
  have hmem := Keyed.mem_of_find? hd
  exact ⟨h.sound _ hmem, h.keyed _ hmem⟩

variable {r s : Registry} {value : Json} {a : Answer}

theorem exists_of_answerAcross (h : r.answerAcross s value = .ok a) :
    ∃ b d, Bound.ofJson r.known value = .ok b ∧ Keyed.find? s.datasets b.dataset = some d ∧
      Answer.ofRecords r.limit b d.records = .ok a := by
  obtain ⟨b, rs, hb, hrs, ha⟩ := Answer.ofQuery_eq_ok_iff.mp h
  obtain ⟨d, hd, rfl⟩ := records?_eq_some_iff.mp hrs
  exact ⟨b, d, hb, hd, ha⟩

theorem answer_of_kind_eq (hs : s.Sound) (hlimit : s.limit = r.limit) {b : Bound} {d : Dataset}
    (hb : Bound.ofJson r.known value = .ok b) (hd : Keyed.find? s.datasets b.dataset = some d)
    (ha : Answer.ofRecords r.limit b d.records = .ok a) (hkind : d.kind = b.kind) :
    s.answer value = .ok a := by
  have hknown : Keyed.find? s.known b.dataset = some b.kind := by
    rw [find?_known hs, hd, Option.map_some, hkind]
  refine Answer.ofQuery_eq_ok_iff.mpr ⟨b, d.records, Bound.ofJson_of_find? hb hknown, ?_, ?_⟩
  · exact records?_eq_some_iff.mpr ⟨d, hd, rfl⟩
  · rw [hlimit, ha]

end Registry

def Kind.label : Kind → String
  | .courses => "dept"
  | .rooms => "shortname"

theorem Kind.classify_label (kind : Kind) : kind.classify kind.label = .textual := by
  cases kind <;> decide

theorem Kind.label_mem_fields (kind : Kind) : kind.label ∈ kind.fields := by
  cases kind <;> decide

namespace Probe

variable (id : String) (kind : Kind)

def key : Key := ⟨id, kind.label⟩

def query : Json :=
  .obj
    [("OPTIONS", .obj [("COLUMNS", .arr [.str (key id kind).text])]),
      ("WHERE", .obj [("IS", .obj [((key id kind).text, .str "*")])])]

def bound : Bound :=
  ⟨id, kind, ⟨some (.text (key id kind) .any), [.key (key id kind)], none, none⟩⟩

variable {id kind}

theorem key_proper (hid : Dataset.isId id) : (key id kind).Proper :=
  Dataset.key_proper hid kind.label_mem_fields

theorem accepted_bound (hid : Dataset.isId id) : (bound id kind).Accepted := by
  refine @Bound.accepted_of_fields _ hid _ _ [kind.label] (List.cons_ne_nil _ _) ?_ ?_ ?_
  · exact List.forall_mem_singleton.mpr kind.label_mem_fields
  · rintro _ ⟨⟩
    exact kind.classify_label
  · rintro _ ⟨⟩
    exact List.forall_mem_singleton.mpr rfl

theorem written_query (hid : Dataset.isId id) : (bound id kind).query.Written (query id kind) := by
  refine .sections ?_ rfl rfl (.filter (.text (key_proper hid) rfl)) (.sections ?_ rfl .none) .none
  · simp [Query.Shape.Exactly, Keyed.keys]
  · simp [Query.Shape.Exactly, Keyed.keys]

theorem ofJson_query (hid : Dataset.isId id) {known : Known}
    (hknown : Keyed.find? known id = some kind) :
    Bound.ofJson known (query id kind) = .ok (bound id kind) :=
  (Bound.ofJson_eq_ok_iff known _ _).mpr ⟨accepted_bound hid, written_query hid, hknown⟩

theorem holds_of_valid {r : Record} (h : r.Valid kind) :
    (Filter.text (key id kind) .any).holds r = true := by
  have hlabel : ∃ s, r.get? (key id kind).field = some (.text s) :=
    (Filter.finds_text h kind.classify_label).2
  obtain ⟨s, hs⟩ := hlabel
  rw [Filter.holds, hs]
  rfl

theorem not_holds_of_valid {other : Kind} (hne : other ≠ kind) {r : Record} (h : r.Valid other) :
    (Filter.text (key id kind) .any).holds r = false := by
  have hunknown : other.classify kind.label = .unknown := by
    by_contra hknown
    have htextual : kind.classify kind.label ≠ .unknown := by simp [kind.classify_label]
    exact hne (Kind.eq_of_classify hknown htextual)
  change Filter.holdsText .any (r.get? kind.label) = false
  rw [h.get?_eq_none hunknown]
  rfl

theorem ofRecords_of_other {other : Kind} (hne : other ≠ kind) {records : List Record}
    (hvalid : ∀ r ∈ records, r.Valid other) (limit : Nat) :
    Answer.ofRecords limit (bound id kind) records = .ok ⟨[], records.length, 0, 0⟩ := by
  have hmatching : (bound id kind).matching records = [] := by
    refine List.filter_eq_nil_iff.mpr fun r hr => ?_
    exact Bool.eq_false_iff.mp (not_holds_of_valid hne (hvalid r hr))
  rw [Answer.ofRecords_eq, hmatching]
  rfl

theorem rows_ne_nil {records : List Record} (hne : records ≠ [])
    (hvalid : ∀ r ∈ records, r.Valid kind) {limit : Nat} {a : Answer}
    (h : Answer.ofRecords limit (bound id kind) records = .ok a) :
    a.rows ≠ [] := by
  have hmatching : (bound id kind).matching records = records :=
    List.filter_eq_self.mpr fun r hr => holds_of_valid (hvalid r hr)
  rw [Answer.ofRecords_eq, hmatching] at h
  split at h
  · cases h
  · cases h
    exact fun hnil => hne (List.map_eq_nil_iff.mp hnil)

end Probe

namespace Registry

variable {r s : Registry}

def Consistent (states : List Registry) (value : Json) (rows : List Row) : Prop :=
  ∃ t ∈ states, ∃ a, t.answer value = .ok a ∧ a.rows = rows

theorem kindsKept_of_consistent (hr : r.Sound) {calls : List Call}
    (h : ∀ value a, r.answerAcross (r.after calls) value = .ok a →
      Consistent (r.passed calls) value a.rows) : r.KindsKept (r.after calls) := by
  intro id d d' hd hd'
  by_contra hne
  obtain ⟨hsound, rfl⟩ := hr.of_find? hd
  have hsound' := ((hr.after calls).of_find? hd').1
  have hknown : Keyed.find? r.known d.id = some d.kind := by
    rw [find?_known hr, hd, Option.map_some]
  -- the probe finds nothing in records of another kind, and everything in those of its own
  have hprobe := Probe.ofJson_query hsound.id hknown
  have hacross : r.answerAcross (r.after calls) (Probe.query d.id d.kind) =
      .ok ⟨[], d'.records.length, 0, 0⟩ := by
    refine Answer.ofQuery_eq_ok_iff.mpr ⟨_, d'.records, hprobe, ?_, ?_⟩
    · exact records?_eq_some_iff.mpr ⟨d', hd', rfl⟩
    · exact Probe.ofRecords_of_other (Ne.symm hne) hsound'.valid _
  obtain ⟨t, ht, a, ha, hrows⟩ := h _ _ hacross
  have htsound := hr.passed ht
  obtain ⟨b, u, hb, hu, ha⟩ := exists_of_answerAcross ha
  cases Bound.ofJson_unique hb hprobe
  have hkind : u.kind = d.kind := by
    have hfind := ((Bound.ofJson_eq_ok_iff _ _ _).mp hb).2.2
    rw [find?_known htsound, hu] at hfind
    exact Option.some.inj hfind
  have husound := (htsound.of_find? hu).1
  exact Probe.rows_ne_nil husound.nonempty (hkind ▸ husound.valid) ha hrows

theorem consistent_of_kindsKept (hr : r.Sound) {calls : List Call}
    (hkept : r.KindsKept (r.after calls)) {value : Json} {a : Answer}
    (h : r.answerAcross (r.after calls) value = .ok a) :
    Consistent (r.passed calls) value a.rows := by
  obtain ⟨b, d, hb, hd, ha⟩ := exists_of_answerAcross h
  have hfind := ((Bound.ofJson_eq_ok_iff _ _ _).mp hb).2.2
  rw [find?_known hr] at hfind
  obtain ⟨before, hbefore, hkind⟩ := Option.map_eq_some_iff.mp hfind
  have hsame : d.kind = b.kind := (hkept _ _ _ hbefore hd).symm.trans hkind
  have hanswer := answer_of_kind_eq (hr.after calls) (r.limit_after calls) hb hd ha hsame
  exact ⟨_, r.after_mem_passed calls, a, hanswer, rfl⟩

theorem consistent_iff_kindsKept (hr : r.Reachable) (calls : List Call) :
    ((∀ value a, r.answerAcross (r.after calls) value = .ok a →
        Consistent (r.passed calls) value a.rows) ↔ r.KindsKept (r.after calls)) ∧
      ∀ value b a, Bound.ofJson r.known value = .ok b →
        r.answerAcross (r.after calls) value = .ok a →
        ∃ d, Keyed.find? (r.after calls).datasets b.dataset = some d ∧
          (d.kind = b.kind → (r.after calls).answer value = .ok a ∧
            ∀ row ∈ a.rows, row.Complete b.kind b.query.columns) ∧
          (d.kind ≠ b.kind →
            ∀ row ∈ a.rows, ∀ k, .key k ∈ b.query.columns → row.get? k.text = none) := by
  have hsound := hr.sound
  refine ⟨⟨kindsKept_of_consistent hsound, ?_⟩, ?_⟩
  · exact fun hkept _ _ => consistent_of_kindsKept hsound hkept
  · intro value b a hb h
    obtain ⟨b', d, hb', hd, ha⟩ := exists_of_answerAcross h
    cases Bound.ofJson_unique hb hb'
    have haccepted := Bound.accepted_of_ofJson hb
    have hvalid := ((hsound.after calls).of_find? hd).1.valid
    refine ⟨d, hd, fun hkind => ⟨?_, fun row hrow => ?_⟩, fun hkind row hrow => ?_⟩
    · exact answer_of_kind_eq (hsound.after calls) (r.limit_after calls) hb hd ha hkind
    · have hmatching : ∀ r ∈ b.matching d.records, r.Valid b.kind :=
        fun r hr => hkind ▸ hvalid r (Bound.mem_of_mem_matching hr)
      exact haccepted.complete_rowsOf hmatching row (Answer.mem_rows_of_ofRecords ha hrow)
    · have hmatching : ∀ r ∈ b.matching d.records, r.Valid d.kind :=
        fun r hr => hvalid r (Bound.mem_of_mem_matching hr)
      exact haccepted.lacks_keys hkind hmatching row (Answer.mem_rows_of_ofRecords ha hrow)

end Registry

namespace Sample

def room : Record :=
  .ofList
    [("lat", .number .zero), ("lon", .number .zero), ("seats", .number (.ofNat 120)),
      ("fullname", .text "Dempster"), ("shortname", .text "DMP"), ("number", .text "310"),
      ("name", .text "DMP_310"), ("address", .text ""), ("type", .text ""),
      ("furniture", .text ""), ("href", .text "")]

def marks : Dataset := ⟨"marks", .courses, [course "cpsc" 90], ""⟩

def rooms : Dataset := ⟨"marks", .rooms, [room], ""⟩

def loaded : Registry := (Registry.fresh 5000).next (.add marks)

def swap : List Call := [.remove "marks", .add rooms]

def averages : Json :=
  .obj [("OPTIONS", .obj [("COLUMNS", .arr [.str "marks_avg"])]), ("WHERE", .obj [])]

end Sample

theorem inconsistent_swap :
    Sample.loaded.Reachable ∧ ¬∀ value a,
      Sample.loaded.answerAcross (Sample.loaded.after Sample.swap) value = .ok a →
        Registry.Consistent (Sample.loaded.passed Sample.swap) value a.rows := by
  have hr : Sample.loaded.Reachable := (Registry.Reachable.fresh 5000).next (.add Sample.marks)
  refine ⟨hr, fun h => ?_⟩
  have hkept := (Registry.consistent_iff_kindsKept hr Sample.swap).1.mp h
  exact nomatch hkept "marks" Sample.marks Sample.rooms rfl rfl

theorem torn_answer :
    Sample.loaded.answerAcross (Sample.loaded.after Sample.swap) Sample.averages =
        .ok ⟨[.empty], 1, 1, 0⟩ ∧
      ∀ t ∈ Sample.loaded.passed Sample.swap, ∀ a, t.answer Sample.averages = .ok a →
        a.rows ≠ [.empty] := by
  have hbefore : Sample.loaded.answer Sample.averages =
      .ok ⟨[⟨[("marks_avg", .number (.ofNat 90))]⟩], 1, 1, 0⟩ := rfl
  have hbetween : (Sample.loaded.next (.remove "marks")).answer Sample.averages =
      .error (.rejected (.unknownDataset "marks")) := rfl
  have hafter : (Sample.loaded.after Sample.swap).answer Sample.averages =
      .error (.rejected (.invalidKey "marks_avg")) := rfl
  refine ⟨rfl, ?_⟩
  intro t ht a ha hrows
  simp only [Registry.passed, Sample.swap, List.mem_cons, List.not_mem_nil, or_false] at ht
  rcases ht with rfl | rfl | rfl
  · cases hbefore.symm.trans ha
    cases hrows
  · cases hbetween.symm.trans ha
  · cases hafter.symm.trans ha

end Registrar
