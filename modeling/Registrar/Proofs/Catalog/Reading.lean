import Mathlib.Data.List.Forall2
import Registrar.Proofs.Catalog.Record
import Registrar.Proofs.Json.WellFormed
import Registrar.Proofs.Keyed

namespace List.Forall₂

variable {α β : Type} {R : α → β → Prop} {xs : List α} {ys : List β}

theorem forall_mem_right (h : Forall₂ R xs ys) {p : α → Prop} {q : β → Prop}
    (hstep : ∀ x y, R x y → p x → q y) (hxs : ∀ x ∈ xs, p x) : ∀ y ∈ ys, q y := by
  induction h with
  | nil => exact nofun
  | cons hhead _ ih =>
      obtain ⟨hx, hrest⟩ := forall_mem_cons.mp hxs
      exact forall_mem_cons.mpr ⟨hstep _ _ hhead hx, ih hrest⟩

end List.Forall₂

namespace Registrar

def Json.field? (v : Json) (name : String) : Option Json := v.object?.bind (Keyed.find? · name)

inductive Cell.Read : FieldClass → Json → Cell → Prop
  | number {v : Json} {x : Binary64} (h : v.number? = some x) : Read .numeric v (.number x)
  | text {v : Json} {s : String} (h : v.string? = some s) : Read .textual v (.text s)

theorem Cell.Read.fieldClass_eq {c : FieldClass} {v : Json} {cell : Cell}
    (h : Cell.Read c v cell) : cell.fieldClass = c := by
  cases h <;> rfl

theorem Cell.Read.finite {c : FieldClass} {v : Json} {cell : Cell} (h : Cell.Read c v cell)
    (hv : v.isWellFormed) : cell.Finite := by
  cases h with
  | number hx => exact Json.isFinite_of_number? hv hx
  | text => trivial

namespace Record

variable {kind : Kind}

theorem readCell_eq_ok_iff {field : String} {v : Json} {cell : Cell} :
    readCell kind field v = .ok cell ↔ Cell.Read (kind.classify field) v cell := by
  rw [readCell]
  constructor
  · intro h
    split at h
    · next hclass =>
      split at h <;> cases h
      next hx => exact hclass ▸ .number hx
    · next hclass =>
      split at h <;> cases h
      next hs => exact hclass ▸ .text hs
    · cases h
  · intro h
    generalize kind.classify field = c at h ⊢
    cases h with
    | number hx => dsimp only; rw [hx]
    | text hs => dsimp only; rw [hs]

def CellsRead (kind : Kind) (members : List (String × Json)) (cells : List (String × Cell)) :
    Prop :=
  List.Forall₂ (fun m c => m.1 = c.1 ∧ Cell.Read (kind.classify m.1) m.2 c.2) members cells

theorem cellsRead_of_readCells {members : List (String × Json)} {cells : List (String × Cell)}
    (h : readCells kind members = .ok cells) : CellsRead kind members cells := by
  induction members generalizing cells with
  | nil =>
      cases h
      exact .nil
  | cons m rest ih =>
      obtain ⟨cell, hcell, h⟩ := Except.bind_eq_ok_iff.mp h
      obtain ⟨others, hothers, h⟩ := Except.bind_eq_ok_iff.mp h
      cases Except.pure_eq_ok_iff.mp h
      exact .cons ⟨rfl, readCell_eq_ok_iff.mp hcell⟩ (ih hothers)

namespace CellsRead

variable {members : List (String × Json)} {cells : List (String × Cell)}

theorem keys_eq (h : CellsRead kind members cells) : Keyed.keys cells = Keyed.keys members :=
  (Keyed.keys_eq_of_forall₂ h).symm

theorem find?_of_find? (h : CellsRead kind members cells) {name : String} {cell : Cell}
    (hcell : Keyed.find? cells name = some cell) :
    ∃ v, Keyed.find? members name = some v ∧ Cell.Read (kind.classify name) v cell := by
  induction h with
  | nil => cases hcell
  | @cons m c members cells hhead _ ih =>
      obtain ⟨hname, hread⟩ := hhead
      rw [Keyed.find?_cons] at hcell ⊢
      rw [hname]
      split at hcell
      · next heq =>
        cases hcell
        rw [if_pos heq]
        exact ⟨m.2, rfl, by rw [← heq, ← hname]; exact hread⟩
      · next hne =>
        rw [if_neg hne]
        exact ih hcell

end CellsRead

theorem exists_of_ofJson {v : Json} {r : Record} (h : ofJson kind v = .ok r) :
    ∃ members cells, v = .obj members ∧ CellsRead kind members cells ∧ r = ofList cells ∧
      ∀ field ∈ kind.fields, field ∈ Keyed.keys r.cells := by
  rw [ofJson] at h
  cases v with
  | obj members =>
      obtain ⟨cells, hcells, h⟩ := Except.bind_eq_ok_iff.mp h
      obtain ⟨hmissing, h⟩ := Except.bind_unit_eq_ok_iff.mp h
      cases Except.pure_eq_ok_iff.mp h
      exact ⟨members, cells, rfl, cellsRead_of_readCells hcells, rfl,
        checkMissing_eq_ok_iff.mp hmissing⟩
  | _ => cases h

theorem valid_of_ofJson {v : Json} {r : Record} (h : ofJson kind v = .ok r) : r.Valid kind := by
  obtain ⟨members, cells, _, hread, rfl, hcomplete⟩ := exists_of_ofJson h
  have hclasses : ∀ c ∈ cells, c.2.fieldClass = kind.classify c.1 := by
    refine hread.forall_mem_right (p := fun _ => True) ?_ fun _ _ => trivial
    rintro ⟨_, v⟩ ⟨field, cell⟩ ⟨rfl, hcell⟩ _
    exact hcell.fieldClass_eq
  exact ⟨fun entry hentry => hclasses entry (Keyed.mem_of_mem_ofList hentry), hcomplete⟩

theorem finite_of_ofJson {v : Json} {r : Record} (hv : v.isWellFormed)
    (h : ofJson kind v = .ok r) : r.Finite := by
  obtain ⟨members, cells, rfl, hread, rfl, _⟩ := exists_of_ofJson h
  have hmembers := (Json.isWellFormed_obj_iff.mp hv).2
  have hcells : ∀ c ∈ cells, c.2.Finite :=
    hread.forall_mem_right (fun _ _ hcell hm => hcell.2.finite hm) hmembers
  exact fun entry hentry => hcells entry (Keyed.mem_of_mem_ofList hentry)

theorem get?_of_ofJson {v : Json} {r : Record} (hv : v.isWellFormed) (h : ofJson kind v = .ok r)
    {field : String} (hfield : field ∈ kind.fields) :
    ∃ value cell, v.field? field = some value ∧ Cell.Read (kind.classify field) value cell ∧
      r.get? field = some cell := by
  obtain ⟨members, cells, rfl, hread, rfl, hcomplete⟩ := exists_of_ofJson h
  have hascending : Keyed.Ascending cells := by
    rw [Keyed.ascending_iff_keys, hread.keys_eq, ← Keyed.ascending_iff_keys]
    exact (Json.isWellFormed_obj_iff.mp hv).1
  have hcell := (Keyed.find?_isSome_iff _ _).mpr (hcomplete field hfield)
  rw [ofList, Keyed.ofList_eq_self hascending] at hcell ⊢
  obtain ⟨cell, hcell⟩ := Option.isSome_iff_exists.mp hcell
  obtain ⟨value, hvalue, hcellRead⟩ := hread.find?_of_find? hcell
  exact ⟨value, cell, hvalue, hcellRead, hcell⟩

end Record

end Registrar
