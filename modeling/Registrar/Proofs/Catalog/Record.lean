import Registrar.Catalog.Record
import Registrar.Proofs.Catalog.Cell
import Registrar.Proofs.Success

namespace Registrar

def Cell.fieldClass : Cell → FieldClass
  | .number _ => .numeric
  | .text _ => .textual

theorem Cell.fieldClass_eq_numeric_iff {c : Cell} :
    c.fieldClass = .numeric ↔ ∃ x, c = .number x := by
  cases c <;> simp [fieldClass]

theorem Cell.fieldClass_eq_textual_iff {c : Cell} :
    c.fieldClass = .textual ↔ ∃ s, c = .text s := by
  cases c <;> simp [fieldClass]

theorem Kind.classify_ne_unknown_iff (kind : Kind) (field : String) :
    kind.classify field ≠ .unknown ↔ field ∈ kind.fields := by
  unfold classify fields
  split
  · simp_all
  · split <;> simp_all

theorem Kind.eq_of_classify {kind other : Kind} {field : String}
    (h : kind.classify field ≠ .unknown) (h' : other.classify field ≠ .unknown) : kind = other := by
  rw [classify_ne_unknown_iff] at h h'
  have hdisjoint : ∀ name ∈ Kind.courses.fields, name ∉ Kind.rooms.fields := by decide
  cases kind <;> cases other
  · rfl
  · exact absurd h' (hdisjoint field h)
  · exact absurd h (hdisjoint field h')
  · rfl

theorem Keyed.mem_of_find? {α : Type} {entries : Keyed α} {name : String} {a : α}
    (h : find? entries name = some a) : (name, a) ∈ entries := by
  obtain ⟨e, he, rfl⟩ := Option.map_eq_some_iff.mp h
  have hname := List.find?_some he
  cases eq_of_beq hname
  exact List.mem_of_find?_eq_some he

namespace Record

def Finds (kind : Kind) (r : Record) (field : String) : Prop :=
  ∃ cell, r.get? field = some cell ∧ cell.fieldClass = kind.classify field

theorem Finds.found {kind : Kind} {r : Record} {field : String} (h : r.Finds kind field) :
    ∃ cell, r.get? field = some cell := by
  obtain ⟨cell, hcell, _⟩ := h
  exact ⟨cell, hcell⟩

structure Valid (kind : Kind) (r : Record) : Prop where
  classes : ∀ entry ∈ r.cells, entry.2.fieldClass = kind.classify entry.1
  complete : ∀ field ∈ kind.fields, field ∈ Keyed.keys r.cells

theorem checkCell_eq_ok_iff {kind : Kind} {field : String} {cell : Cell} :
    checkCell kind field cell = .ok () ↔ cell.fieldClass = kind.classify field := by
  cases cell <;> cases hclass : kind.classify field <;> simp [checkCell, hclass, Cell.fieldClass]

theorem checkCells_eq_ok_iff {kind : Kind} {cells : List (String × Cell)} :
    checkCells kind cells = .ok () ↔
      ∀ entry ∈ cells, entry.2.fieldClass = kind.classify entry.1 := by
  induction cells with
  | nil => exact ⟨fun _ => nofun, fun _ => rfl⟩
  | cons entry rest ih =>
      rw [List.forall_mem_cons, ← ih, ← checkCell_eq_ok_iff]
      exact Except.bind_unit_eq_ok_iff

theorem checkMissing_eq_ok_iff {kind : Kind} {r : Record} :
    r.checkMissing kind = .ok () ↔ ∀ field ∈ kind.fields, field ∈ Keyed.keys r.cells := by
  have hnone : r.missing? kind = none ↔ ∀ field ∈ kind.fields, field ∈ Keyed.keys r.cells := by
    rw [missing?, List.find?_eq_none]
    refine forall₂_congr fun field _ => ?_
    rw [← Keyed.find?_isSome_iff]
    simp only [Keyed.contains, Bool.not_eq_true', Bool.not_eq_false]
  rw [← hnone, checkMissing]
  cases r.missing? kind <;> simp

theorem validate_eq_ok_iff {kind : Kind} {r : Record} :
    r.validate kind = .ok () ↔ r.Valid kind := by
  rw [validate, Except.bind_unit_eq_ok_iff, checkCells_eq_ok_iff, checkMissing_eq_ok_iff]
  exact ⟨fun ⟨hclasses, hcomplete⟩ => ⟨hclasses, hcomplete⟩, fun h => ⟨h.classes, h.complete⟩⟩

theorem Valid.finds {kind : Kind} {r : Record} (h : r.Valid kind) {field : String}
    (hknown : kind.classify field ≠ .unknown) : r.Finds kind field := by
  have hkey := h.complete field ((kind.classify_ne_unknown_iff field).mp hknown)
  obtain ⟨cell, hcell⟩ := Option.isSome_iff_exists.mp ((Keyed.find?_isSome_iff _ _).mpr hkey)
  exact ⟨cell, hcell, h.classes _ (Keyed.mem_of_find? hcell)⟩

theorem Valid.get?_eq_none {kind : Kind} {r : Record} (h : r.Valid kind) {field : String}
    (hunknown : kind.classify field = .unknown) : r.get? field = none := by
  by_contra hsome
  obtain ⟨cell, hcell⟩ := Option.ne_none_iff_exists'.mp hsome
  have hclass := h.classes _ (Keyed.mem_of_find? hcell)
  rw [hunknown] at hclass
  cases cell <;> cases hclass

def Finite (r : Record) : Prop := ∀ entry ∈ r.cells, entry.2.Finite

instance (r : Record) : Decidable r.Finite :=
  inferInstanceAs (Decidable (∀ entry ∈ r.cells, entry.2.Finite))

theorem Finite.of_get? {r : Record} (h : r.Finite) {field : String} {cell : Cell}
    (hcell : r.get? field = some cell) : cell.Finite :=
  h _ (Keyed.mem_of_find? hcell)

end Record

end Registrar
