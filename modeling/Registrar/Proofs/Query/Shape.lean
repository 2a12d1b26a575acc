import Registrar.Proofs.Success
import Registrar.Query.Shape

namespace Registrar

namespace Json

theorem object?_eq_some_iff {value : Json} {members : Keyed Json} :
    value.object? = some members ↔ value = .obj members := by
  cases value <;> simp [object?]

theorem array?_eq_some_iff {value : Json} {items : List Json} :
    value.array? = some items ↔ value = .arr items := by
  cases value <;> simp [array?]

theorem string?_eq_some_iff {value : Json} {text : String} :
    value.string? = some text ↔ value = .str text := by
  cases value <;> simp [string?]

end Json

namespace Query.Shape

def Exactly (required optional : List String) (members : Keyed Json) : Prop :=
  (∀ key ∈ required, key ∈ members.keys) ∧ ∀ key ∈ members.keys, key ∈ required ∨ key ∈ optional

theorem Exactly.find?_eq_none {required optional : List String} {members : Keyed Json}
    (h : Exactly required optional members) {name : String} (hrequired : name ∉ required)
    (hoptional : name ∉ optional) : Keyed.find? members name = none := by
  rw [← Option.not_isSome_iff_eq_none, Keyed.find?_isSome_iff]
  exact fun hname => (h.2 name hname).elim hrequired hoptional

variable {part : String} {value : Json}

theorem object_eq_ok_iff {members : Keyed Json} :
    object part value = .ok members ↔ value = .obj members := by
  rw [← Json.object?_eq_some_iff, object]
  cases value.object? <;> simp

theorem array_eq_ok_iff {items : List Json} :
    array part value = .ok items ↔ value = .arr items := by
  rw [← Json.array?_eq_some_iff, array]
  cases value.array? <;> simp

theorem nonEmptyArray_eq_ok_iff {items : List Json} :
    nonEmptyArray part value = .ok items ↔ value = .arr items ∧ items ≠ [] := by
  rw [← @array_eq_ok_iff part, nonEmptyArray]
  split
  · next h =>
    rw [h]
    constructor
    · nofun
    · rintro ⟨hnil, hne⟩
      exact absurd (Except.ok.inj hnil).symm hne
  · next h =>
    constructor
    · exact fun hok => ⟨hok, fun hnil => h (hnil ▸ hok)⟩
    · exact And.left

theorem string_eq_ok_iff {text : String} : string part value = .ok text ↔ value = .str text := by
  rw [← Json.string?_eq_some_iff, string]
  cases value.string? <;> simp

theorem single_eq_ok_iff {entry : String × Json} :
    single part value = .ok entry ↔ value = .obj [entry] := by
  rw [← @object_eq_ok_iff part, single]
  split
  · next h => simp [h]
  · next members hne h =>
    rw [h]
    constructor
    · nofun
    · exact fun hok => absurd (Except.ok.inj hok) (hne entry)
  · next h => simp [h]

theorem key_eq_ok_iff {raw : String} {k : Key} :
    key raw = .ok k ↔ k.Proper ∧ raw = k.text := by
  rw [← Key.parse?_eq_some_iff, key]
  cases Key.parse? raw <;> simp

theorem member_eq_ok_iff {members : Keyed Json} {name : String} :
    member part members name = .ok value ↔ Keyed.find? members name = some value := by
  rw [member]
  cases Keyed.find? members name <;> simp

theorem exactKeys_eq_ok_iff {required optional : List String} {members : Keyed Json} :
    exactKeys part required optional members = .ok () ↔ Exactly required optional members := by
  have hmem (key : String) : Keyed.contains members key = true ↔ key ∈ members.keys :=
    Keyed.find?_isSome_iff members key
  unfold exactKeys Exactly
  split
  · next key hfind =>
    have hmissing : key ∉ members.keys := by
      rw [← hmem]
      simpa using List.find?_some hfind
    refine ⟨nofun, fun h => absurd (h.1 key (List.mem_of_find?_eq_some hfind)) hmissing⟩
  · next hnone =>
    have hrequired : ∀ key ∈ required, key ∈ members.keys := by
      intro key hkey
      rw [← hmem]
      simpa using List.find?_eq_none.mp hnone key hkey
    split
    · next key hfind =>
      have hextra := List.find?_some hfind
      simp only [Bool.not_eq_true', Bool.or_eq_false_iff, List.contains_eq_mem,
        decide_eq_false_iff_not] at hextra
      refine ⟨nofun, fun h => ?_⟩
      rcases h.2 key (List.mem_of_find?_eq_some hfind) with hr | ho
      · exact absurd hr hextra.1
      · exact absurd ho hextra.2
    · next hfit =>
      refine ⟨fun _ => ⟨hrequired, fun key hkey => ?_⟩, fun _ => rfl⟩
      simpa [Classical.or_iff_not_imp_left] using List.find?_eq_none.mp hfit key hkey

end Query.Shape

end Registrar
