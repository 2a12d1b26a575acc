import Mathlib.Data.List.Forall2
import Registrar.Proofs.Catalog.Record
import Registrar.Registry.Dataset

namespace Registrar

structure FirstFault {α β ε : Type} (check : α → Except ε β) (items : List α) (index : Nat)
    (cause : ε) : Prop where
  fails : ∃ item, items[index]? = some item ∧ check item = .error cause
  before : ∀ i < index, ∀ item, items[i]? = some item → ∃ b, check item = .ok b

namespace FirstFault

variable {α β ε : Type} {check : α → Except ε β} {item : α} {rest : List α} {cause : ε}

theorem zero_iff : FirstFault check (item :: rest) 0 cause ↔ check item = .error cause := by
  constructor
  · rintro ⟨⟨_, ⟨⟩, h⟩, _⟩
    exact h
  · exact fun h => ⟨⟨item, rfl, h⟩, nofun⟩

theorem succ_iff {index : Nat} : FirstFault check (item :: rest) (index + 1) cause ↔
    (∃ b, check item = .ok b) ∧ FirstFault check rest index cause := by
  constructor
  · rintro ⟨⟨last, hlast, h⟩, hbefore⟩
    refine ⟨hbefore 0 (Nat.succ_pos index) item rfl, ⟨last, hlast, h⟩, fun i hi => ?_⟩
    exact hbefore (i + 1) (Nat.succ_lt_succ hi)
  · rintro ⟨hitem, ⟨hfails, hbefore⟩⟩
    refine ⟨hfails, fun i hi other hother => ?_⟩
    cases i with
    | zero =>
        cases hother
        exact hitem
    | succ i => exact hbefore i (Nat.lt_of_succ_lt_succ hi) other hother

theorem exists_cons_iff {p : Nat → ε → Prop} :
    (∃ index cause, FirstFault check (item :: rest) index cause ∧ p index cause) ↔
      (∃ cause, check item = .error cause ∧ p 0 cause) ∨
        (∃ b, check item = .ok b) ∧
          ∃ index cause, FirstFault check rest index cause ∧ p (index + 1) cause := by
  constructor
  · rintro ⟨_ | index, cause, h, hp⟩
    · exact .inl ⟨cause, zero_iff.mp h, hp⟩
    · obtain ⟨hitem, hrest⟩ := succ_iff.mp h
      exact .inr ⟨hitem, index, cause, hrest, hp⟩
  · rintro (⟨cause, h, hp⟩ | ⟨hitem, index, cause, hrest, hp⟩)
    · exact ⟨0, cause, zero_iff.mpr h, hp⟩
    · exact ⟨index + 1, cause, succ_iff.mpr ⟨hitem, hrest⟩, hp⟩

theorem not_nil {index : Nat} : ¬FirstFault check [] index cause := by
  rintro ⟨⟨_, h, _⟩, _⟩
  cases h

end FirstFault

namespace Dataset

structure Sound (d : Dataset) : Prop where
  id : isId d.id
  nonempty : d.records ≠ []
  valid : ∀ r ∈ d.records, r.Valid d.kind

theorem isId_iff {id : String} :
    isId id ↔ (∃ c ∈ id.toList, ¬Text.isBlank c) ∧ Key.separator ∉ id.toList := by
  simp [isId, Text.allBlank]

theorem key_proper {id : String} (hid : isId id) {kind : Kind} {field : String}
    (hfield : field ∈ kind.fields) : Key.Proper ⟨id, field⟩ := by
  obtain ⟨⟨c, hc, _⟩, hseparator⟩ := isId_iff.mp hid
  have hparts : ∀ name ∈ kind.fields, name ≠ "" ∧ Key.separator ∉ name.toList := by
    cases kind <;> decide
  obtain ⟨hname, hplain⟩ := hparts field hfield
  refine ⟨?_, hname, hseparator, hplain⟩
  rintro rfl
  cases hc

theorem checkRecords_eq_ok_iff {kind : Kind} {index : Nat} {records : List Record} :
    checkRecords kind index records = .ok () ↔ ∀ r ∈ records, r.Valid kind := by
  induction records generalizing index with
  | nil => exact ⟨fun _ => nofun, fun _ => rfl⟩
  | cons r rest ih =>
      rw [List.forall_mem_cons, ← Record.validate_eq_ok_iff, checkRecords]
      split
      · next h => simp [h]
      · next h => simp [h, ih]

theorem checkRecords_eq_error_iff {kind : Kind} {index : Nat} {records : List Record}
    {fault : DatasetFault} :
    checkRecords kind index records = .error fault ↔
      ∃ i cause, FirstFault (Record.validate kind) records i cause ∧
        fault = .invalidRecord (index + i) cause := by
  induction records generalizing index with
  | nil => exact ⟨nofun, fun ⟨_, _, h, _⟩ => (FirstFault.not_nil h).elim⟩
  | cons r rest ih =>
      rw [FirstFault.exists_cons_iff, checkRecords]
      split
      · next cause h => simp [h, eq_comm]
      · next h => simp [h, ih, Nat.add_right_comm, Nat.add_assoc]

theorem checkId_eq_ok_iff {id : String} : checkId id = .ok () ↔ isId id := by
  rw [checkId]
  split <;> simp_all

theorem checkId_eq_error_iff {id : String} {fault : DatasetFault} :
    checkId id = .error fault ↔ ¬isId id ∧ fault = .invalidId id := by
  rw [checkId]
  split
  · next h => exact ⟨nofun, fun hnot => (hnot.1 h).elim⟩
  · next h => exact ⟨fun heq => ⟨h, (Except.error.inj heq).symm⟩, fun heq => heq.2 ▸ rfl⟩

theorem check_eq_ok_iff {d : Dataset} : check d.id d.kind d.records = .ok () ↔ d.Sound := by
  simp only [check, Except.bind_unit_eq_ok_iff, checkId_eq_ok_iff]
  constructor
  · rintro ⟨hid, h⟩
    split at h
    · exact (Except.throw_eq_ok_iff.mp (Except.bind_unit_eq_ok_iff.mp h).1).elim
    · next hne => exact ⟨hid, hne, checkRecords_eq_ok_iff.mp h⟩
  · rintro ⟨hid, hne, hvalid⟩
    rw [if_neg hne]
    exact ⟨hid, checkRecords_eq_ok_iff.mpr hvalid⟩

inductive Faulty (d : Dataset) : DatasetFault → Prop
  | id (h : ¬isId d.id) : Faulty d (.invalidId d.id)
  | empty (hid : isId d.id) (h : d.records = []) : Faulty d (.empty d.id)
  | record (hid : isId d.id) {index : Nat} {cause : RecordFault}
      (h : FirstFault (Record.validate d.kind) d.records index cause) :
      Faulty d (.invalidRecord index cause)

theorem check_eq_error_iff {d : Dataset} {fault : DatasetFault} :
    check d.id d.kind d.records = .error fault ↔ d.Faulty fault := by
  rw [check, Except.bind_unit_eq_error_iff, checkId_eq_error_iff, checkId_eq_ok_iff]
  constructor
  · rintro (⟨hid, rfl⟩ | ⟨hid, h⟩)
    · exact .id hid
    · split at h
      · next hempty =>
        cases h
        exact .empty hid hempty
      · obtain ⟨i, cause, hfirst, rfl⟩ := checkRecords_eq_error_iff.mp h
        rw [Nat.zero_add]
        exact .record hid hfirst
  · intro h
    cases h with
    | id hid => exact .inl ⟨hid, rfl⟩
    | empty hid hempty =>
        refine .inr ⟨hid, ?_⟩
        rw [if_pos hempty]
        rfl
    | record hid hfirst =>
        refine .inr ⟨hid, ?_⟩
        have hne : d.records ≠ [] := fun hnil => FirstFault.not_nil (hnil ▸ hfirst)
        rw [if_neg hne]
        exact checkRecords_eq_error_iff.mpr ⟨_, _, hfirst, by rw [Nat.zero_add]⟩

def Read (kind : Kind) (payload : Json) (records : List Record) : Prop :=
  ∃ items, payload.array? = some items ∧
    List.Forall₂ (fun item r => Record.ofJson kind item = .ok r) items records

theorem readRecords_eq_ok_iff {kind : Kind} {index : Nat} {items : List Json}
    {records : List Record} :
    readRecords kind index items = .ok records ↔
      List.Forall₂ (fun item r => Record.ofJson kind item = .ok r) items records := by
  induction items generalizing index records with
  | nil => rw [List.forall₂_nil_left_iff, readRecords, Except.ok.injEq, eq_comm]
  | cons item rest ih =>
      rw [List.forall₂_cons_left_iff, readRecords]
      split
      · next h => simp [h]
      · next r h =>
        rw [Except.bind_eq_ok_iff]
        simp only [h, ih, Except.pure_eq_ok_iff, Except.ok.injEq]
        constructor
        · exact fun ⟨others, hothers, heq⟩ => ⟨r, others, rfl, hothers, heq.symm⟩
        · rintro ⟨_, others, rfl, hothers, heq⟩
          exact ⟨others, hothers, heq.symm⟩

theorem readRecords_eq_error_iff {kind : Kind} {index : Nat} {items : List Json}
    {fault : DatasetFault} :
    readRecords kind index items = .error fault ↔
      ∃ i cause, FirstFault (Record.ofJson kind) items i cause ∧
        fault = .invalidRecord (index + i) cause := by
  induction items generalizing index with
  | nil => exact ⟨nofun, fun ⟨_, _, h, _⟩ => (FirstFault.not_nil h).elim⟩
  | cons item rest ih =>
      rw [FirstFault.exists_cons_iff, readRecords]
      split
      · next cause h => simp [h, eq_comm]
      · next r h =>
        have hpure (records : List Record) :
            (pure (r :: records) : Except DatasetFault _) ≠ .error fault := nofun
        rw [Except.bind_eq_error_iff, ih]
        simp [h, hpure, Nat.add_right_comm, Nat.add_assoc]

theorem parseRecords_eq_ok_iff {kind : Kind} {payload : Json} {records : List Record} :
    parseRecords kind payload = .ok records ↔ Read kind payload records := by
  rw [parseRecords, Read]
  cases payload.array? with
  | none => simp
  | some items => simp [readRecords_eq_ok_iff]

inductive Unreadable (kind : Kind) (payload : Json) : DatasetFault → Prop
  | payload (h : payload.array? = none) : Unreadable kind payload .invalidPayload
  | element {items : List Json} {index : Nat} {cause : RecordFault}
      (hitems : payload.array? = some items)
      (h : FirstFault (Record.ofJson kind) items index cause) :
      Unreadable kind payload (.invalidRecord index cause)

theorem parseRecords_eq_error_iff {kind : Kind} {payload : Json} {fault : DatasetFault} :
    parseRecords kind payload = .error fault ↔ Unreadable kind payload fault := by
  rw [parseRecords]
  split
  · next items hitems =>
    rw [readRecords_eq_error_iff]
    constructor
    · rintro ⟨i, cause, hfirst, rfl⟩
      rw [Nat.zero_add]
      exact .element hitems hfirst
    · rintro (hnone | ⟨hitems', hfirst⟩)
      · cases hitems.symm.trans hnone
      · cases hitems.symm.trans hitems'
        exact ⟨_, _, hfirst, by rw [Nat.zero_add]⟩
  · next hnone =>
    constructor
    · rintro ⟨⟩
      exact .payload hnone
    · rintro (_ | ⟨hitems, _⟩)
      · rfl
      · cases hnone.symm.trans hitems

end Dataset

end Registrar
