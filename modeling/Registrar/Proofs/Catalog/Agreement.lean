import Registrar.Proofs.Answer.Evaluable
import Registrar.Proofs.Catalog.Reading
import Registrar.Proofs.Registry.Lifecycle

inductive Except.Agree {ε α β : Type} (R : α → β → Prop) : Except ε α → Except ε β → Prop
  | ok {a : α} {b : β} (h : R a b) : Agree R (.ok a) (.ok b)
  | error (e : ε) : Agree R (.error e) (.error e)

theorem Except.Agree.bind {ε α β γ δ : Type} {R : α → β → Prop} {S : γ → δ → Prop}
    {x : Except ε α} {y : Except ε β} {f : α → Except ε γ} {g : β → Except ε δ} (h : Agree R x y)
    (hnext : ∀ a b, R a b → Agree S (f a) (g b)) : Agree S (x >>= f) (y >>= g) := by
  cases h with
  | ok h => exact hnext _ _ h
  | error e => exact .error e

namespace Registrar

namespace Binary64

theorem equal_ofInt {x : Binary64} {i : Int} (h : x.shortInt? = some i) : (ofInt i).equal x := by
  cases x with
  | nan => cases h
  | infinite => cases h
  | finite negative rank =>
      simp only [shortInt?] at h
      split at h
      · next hwhole =>
        obtain ⟨whole, hunits⟩ := Nat.dvd_of_mod_eq_zero
          (of_decide_eq_true (Bool.and_eq_true_iff.mp hwhole).1)
        rw [hunits, Nat.mul_div_cancel_left whole unity_pos] at h
        cases h
        rw [ofInt, natAbs_signed, Nat.mul_comm, ← hunits, nearest_units, equal_finite_iff]
        by_cases hzero : rank.val = 0
        · exact .inr ⟨hzero, hzero⟩
        · have hpos : 0 < whole := by
            refine Nat.pos_of_ne_zero fun h => ?_
            have hunits' := units_pos (Nat.pos_of_ne_zero hzero)
            rw [hunits, h] at hunits'
            exact Nat.lt_irrefl 0 hunits'
          refine .inl (congrArg (finite · rank) ?_)
          cases negative with
          | true => exact decide_eq_true (by rw [signed, if_pos rfl]; omega)
          | false => exact decide_eq_false (by rw [signed, if_neg Bool.false_ne_true]; omega)
      · cases h

end Binary64

theorem Json.number?_ofBinary64 {x : Binary64} (h : x.isFinite) :
    ∃ y, (ofBinary64 x).number? = some y ∧ y.equal x := by
  rw [ofBinary64]
  cases hshort : x.shortInt? with
  | some i => exact ⟨.ofInt i, rfl, Binary64.equal_ofInt hshort⟩
  | none =>
      rw [h]
      exact ⟨x, rfl, Binary64.equal_self (Binary64.isNan_of_isFinite h)⟩

theorem Json.string?_ofBinary64 (x : Binary64) : (ofBinary64 x).string? = none := by
  rw [ofBinary64]
  cases x.shortInt? with
  | some => rfl
  | none => cases x.isFinite <;> rfl

namespace Record

def toJson (r : Record) : Json := .obj (r.cells.map fun e => (e.1, e.2.toJson))

def Same (r s : Record) : Prop :=
  List.Forall₂ (fun e f => e.1 = f.1 ∧ e.2.same f.2) r.cells s.cells

variable {kind : Kind}

theorem agree_readCell (kind : Kind) (field : String) {cell : Cell} (h : cell.Finite) :
    Except.Agree (fun read _ => read.same cell = true) (readCell kind field cell.toJson)
      (checkCell kind field cell) := by
  cases hclass : kind.classify field <;> simp only [readCell, checkCell, hclass]
  case numeric =>
    cases cell with
    | number x =>
        obtain ⟨y, hy, hequal⟩ := Json.number?_ofBinary64 h
        rw [Cell.toJson, hy]
        exact .ok hequal
    | text => exact .error _
  case textual =>
    cases cell with
    | number x =>
        rw [Cell.toJson, Json.string?_ofBinary64]
        exact .error _
    | text s => exact .ok (decide_eq_true rfl)
  case unknown => exact .error _

theorem agree_readCells (kind : Kind) {cells : List (String × Cell)}
    (h : ∀ e ∈ cells, e.2.Finite) :
    Except.Agree (fun read _ => List.Forall₂ (fun e f => e.1 = f.1 ∧ e.2.same f.2 = true) read cells)
      (readCells kind (cells.map fun e => (e.1, e.2.toJson))) (checkCells kind cells) := by
  induction cells with
  | nil => exact .ok .nil
  | cons e rest ih =>
      obtain ⟨he, hrest⟩ := List.forall_mem_cons.mp h
      refine (agree_readCell kind e.1 he).bind fun cell _ hcell => ?_
      rw [← bind_pure (checkCells kind rest)]
      exact (ih hrest).bind fun _ _ hcells => .ok (.cons ⟨rfl, hcell⟩ hcells)

theorem checkMissing_congr {r s : Record} (h : Keyed.keys r.cells = Keyed.keys s.cells) :
    r.checkMissing kind = s.checkMissing kind := by
  have hcontains (field : String) :
      Keyed.contains r.cells field = Keyed.contains s.cells field := by
    rw [Keyed.contains, Keyed.contains, Bool.eq_iff_iff, Keyed.find?_isSome_iff,
      Keyed.find?_isSome_iff, h]
  simp only [checkMissing, missing?, hcontains]

theorem agree_toJson (kind : Kind) {r : Record} (hascending : Keyed.Ascending r.cells)
    (hfinite : r.Finite) :
    Except.Agree (fun read _ => read.Same r) (ofJson kind r.toJson) (r.validate kind) := by
  refine (agree_readCells kind hfinite).bind fun cells _ hcells => ?_
  have hkeys := Keyed.keys_eq_of_forall₂ hcells
  have hsame : (ofList cells).cells = cells := by
    refine Keyed.ofList_eq_self ?_
    rwa [Keyed.ascending_iff_keys, hkeys, ← Keyed.ascending_iff_keys]
  have hmissing : (ofList cells).checkMissing kind = r.checkMissing kind :=
    checkMissing_congr (by rw [hsame, hkeys])
  dsimp only
  rw [hmissing]
  cases r.checkMissing kind with
  | ok => exact .ok (by rwa [Same, hsame])
  | error fault => exact .error fault

end Record

structure Json.Depicts (kind : Kind) (members : List (String × Json)) : Prop where
  names : ∀ name, name ∈ Keyed.keys members ↔ name ∈ kind.fields
  numbers : ∀ m ∈ members, m.1 ∈ kind.numericFields →
    (∃ i, m.2 = .int i) ∨ ∃ x, m.2 = .real x
  texts : ∀ m ∈ members, m.1 ∈ kind.textualFields → ∃ s, m.2 = .str s

namespace Record

variable {kind : Kind}

theorem read_numeric_iff {v : Json} :
    (∃ cell, Cell.Read .numeric v cell) ↔ (∃ i, v = .int i) ∨ ∃ x, v = .real x := by
  constructor
  · rintro ⟨_, h⟩
    cases h with
    | number hx =>
        cases v <;> cases hx
        · exact .inl ⟨_, rfl⟩
        · exact .inr ⟨_, rfl⟩
  · rintro (⟨i, rfl⟩ | ⟨x, rfl⟩)
    · exact ⟨_, .number rfl⟩
    · exact ⟨_, .number rfl⟩

theorem read_textual_iff {v : Json} : (∃ cell, Cell.Read .textual v cell) ↔ ∃ s, v = .str s := by
  constructor
  · rintro ⟨_, h⟩
    cases h with
    | text hs =>
        cases v <;> cases hs
        exact ⟨_, rfl⟩
  · rintro ⟨s, rfl⟩
    exact ⟨_, .text rfl⟩

theorem readCells_succeeds_iff {members : List (String × Json)} :
    (∃ cells, readCells kind members = .ok cells) ↔
      ∀ m ∈ members, ∃ cell, Cell.Read (kind.classify m.1) m.2 cell := by
  induction members with
  | nil => exact ⟨fun _ m hm => absurd hm List.not_mem_nil, fun _ => ⟨[], rfl⟩⟩
  | cons m rest ih =>
      obtain ⟨field, value⟩ := m
      rw [List.forall_mem_cons, ← ih, readCells]
      simp only [Except.bind_eq_ok_iff, Except.pure_eq_ok_iff, readCell_eq_ok_iff]
      constructor
      · rintro ⟨_, cell, hcell, cells, hcells, rfl⟩
        exact ⟨⟨cell, hcell⟩, cells, hcells⟩
      · rintro ⟨⟨cell, hcell⟩, cells, hcells⟩
        exact ⟨_, cell, hcell, cells, hcells, rfl⟩

theorem ofJson_succeeds_iff {members : List (String × Json)} :
    (∃ r, ofJson kind (.obj members) = .ok r) ↔
      (∀ m ∈ members, ∃ cell, Cell.Read (kind.classify m.1) m.2 cell) ∧
        ∀ field ∈ kind.fields, field ∈ Keyed.keys members := by
  rw [← readCells_succeeds_iff]
  constructor
  · rintro ⟨r, h⟩
    obtain ⟨_, cells, ⟨⟩, hread, rfl, hcomplete⟩ := exists_of_ofJson h
    obtain ⟨cells', hcells, _⟩ := Except.bind_eq_ok_iff.mp h
    refine ⟨⟨cells', hcells⟩, fun field hfield => ?_⟩
    rw [← hread.keys_eq]
    exact (Keyed.mem_keys_ofList cells field).mp (hcomplete field hfield)
  · rintro ⟨⟨cells, hcells⟩, hcomplete⟩
    have hkeys := (cellsRead_of_readCells hcells).keys_eq
    have hmissing : (ofList cells).checkMissing kind = .ok () := by
      rw [checkMissing_eq_ok_iff]
      intro field hfield
      refine (Keyed.mem_keys_ofList cells field).mpr ?_
      rw [← Keyed.keys, hkeys]
      exact hcomplete field hfield
    refine ⟨ofList cells, Except.bind_eq_ok_iff.mpr ⟨cells, hcells, ?_⟩⟩
    exact Except.bind_unit_eq_ok_iff.mpr ⟨hmissing, rfl⟩

theorem depicts_iff {members : List (String × Json)} :
    Json.Depicts kind members ↔
      (∀ m ∈ members, ∃ cell, Cell.Read (kind.classify m.1) m.2 cell) ∧
        ∀ field ∈ kind.fields, field ∈ Keyed.keys members := by
  constructor
  · rintro ⟨hnames, hnumbers, htexts⟩
    refine ⟨fun m hm => ?_, fun field => (hnames field).mpr⟩
    have hfield := (hnames m.1).mp (List.mem_map_of_mem hm)
    rcases List.mem_append.mp hfield with hnumeric | htextual
    · rw [(kind.classify_numeric_iff m.1).mpr hnumeric]
      exact read_numeric_iff.mpr (hnumbers m hm hnumeric)
    · rw [(kind.classify_textual_iff m.1).mpr htextual]
      exact read_textual_iff.mpr (htexts m hm htextual)
  · rintro ⟨hread, hcomplete⟩
    refine ⟨fun name => ⟨fun hname => ?_, hcomplete name⟩, fun m hm hnumeric => ?_,
      fun m hm htextual => ?_⟩
    · obtain ⟨m, hm, rfl⟩ := List.mem_map.mp hname
      obtain ⟨cell, hcell⟩ := hread m hm
      rw [← kind.classify_ne_unknown_iff, ← hcell.fieldClass_eq]
      cases cell <;> exact nofun
    · have hm := hread m hm
      rw [(kind.classify_numeric_iff m.1).mpr hnumeric] at hm
      exact read_numeric_iff.mp hm
    · have hm := hread m hm
      rw [(kind.classify_textual_iff m.1).mpr htextual] at hm
      exact read_textual_iff.mp hm

theorem ofJson_succeeds_iff_depicts {v : Json} :
    (∃ r, ofJson kind v = .ok r) ↔ ∃ members, v = .obj members ∧ Json.Depicts kind members := by
  constructor
  · rintro ⟨r, h⟩
    obtain ⟨members, _, rfl, _⟩ := exists_of_ofJson h
    exact ⟨members, rfl, depicts_iff.mpr (ofJson_succeeds_iff.mp ⟨r, h⟩)⟩
  · rintro ⟨members, rfl, h⟩
    exact ofJson_succeeds_iff.mpr (depicts_iff.mp h)

end Record

theorem Registry.not_refuses_record {r : Registry} {d : Dataset}
    (h : ∀ record ∈ d.records, record.validate d.kind = .ok ()) (index : Nat)
    (cause : RecordFault) : ¬r.Refuses d (.invalidRecord index cause) := by
  rintro (hfaulty | _)
  obtain _ | _ | ⟨_, hfails, _⟩ := hfaulty
  obtain ⟨record, hrecord, hfault⟩ := hfails
  cases (h record (List.mem_of_getElem? hrecord)).symm.trans hfault

theorem Record.checks_agree (kind : Kind) :
    (∀ r : Record, Keyed.Ascending r.cells → r.Finite →
      Except.Agree (fun read _ => read.Same r) (ofJson kind r.toJson) (r.validate kind)) ∧
    (∀ v : Json, (∃ r, ofJson kind v = .ok r) ↔
      ∃ members, v = .obj members ∧ Json.Depicts kind members) ∧
    (∀ v r, ofJson kind v = .ok r → r.validate kind = .ok ()) ∧
    ∀ (registry : Registry) (now id : String) (payload : Json) (records : List Record),
      Dataset.parseRecords kind payload = .ok records → ∀ index cause,
        (registry.addJson now id kind payload).result ≠ .error (.invalidRecord index cause) := by
  have hvalid (v : Json) (r : Record) (h : ofJson kind v = .ok r) : r.validate kind = .ok () :=
    validate_eq_ok_iff.mpr (valid_of_ofJson h)
  refine ⟨fun r hascending hfinite => agree_toJson kind hascending hfinite,
    fun v => ofJson_succeeds_iff_depicts, hvalid, ?_⟩
  intro registry now id payload records hparse index cause hresult
  obtain ⟨items, _, hread⟩ := Dataset.parseRecords_eq_ok_iff.mp hparse
  rw [Registry.addJson, hparse] at hresult
  have hrefuses := ((registry.add_lawful ⟨id, kind, records, now⟩).fails _).mp hresult
  refine Registry.not_refuses_record (fun r hr => ?_) index cause hrefuses
  exact hread.forall_mem_right (p := fun _ => True) (fun v r hv _ => hvalid v r hv)
    (fun _ _ => trivial) r hr

def Sample.minusZero : Record :=
  (course "cpsc" 90).insert "fail" (.number (.finite true Binary64.zeroRank))

theorem Record.checks_agree_minusZero :
    (Sample.minusZero.validate .courses = .ok () ∧
      Except.Agree (fun read _ => read.Same Sample.minusZero)
        (ofJson .courses Sample.minusZero.toJson) (Sample.minusZero.validate .courses)) ∧
      Sample.minusZero.validate .rooms = .error (.unknownField .rooms "audit") ∧
      Except.Agree (fun read _ => read.Same Sample.minusZero)
        (ofJson .rooms Sample.minusZero.toJson) (Sample.minusZero.validate .rooms) := by
  have hascending : Keyed.Ascending Sample.minusZero.cells :=
    Keyed.ascending_insert _ _ (Keyed.ascending_ofList _)
  have hfinite : Sample.minusZero.Finite := by decide +kernel
  exact ⟨⟨by decide, (checks_agree .courses).1 _ hascending hfinite⟩, by decide,
    (checks_agree .rooms).1 _ hascending hfinite⟩

end Registrar
